import Std.Async.DNS
import Std.Async.TCP
import Std.Sync.Channel
import Std.Time
import AdaptiveConsensus.Config.Dotenv
import AdaptiveConsensus.Link.Reception
import AdaptiveConsensus.Program.Agent
import AdaptiveConsensus.Program.Report

/-!
# The programs

The outer layer of the agent (main.rs:91-137) and of the report program (bin/report_buckets.rs:42-107):
it reads files, the environment and the network, and hands what it finds to the library. The program
runs the bucket report if its name or its first word says so, and the agent otherwise.
-/

namespace AdaptiveConsensus.Main

open Std.Async Std.Net

/-! ## What the system says -/

/-- The cause that a failed call of the system gives. -/
def systemError : IO.Error → SystemError
  | .noFileOrDirectory .. => .notFound
  | .alreadyExists .. => .alreadyExists
  | e => .other (toString e)

/-- The outcome of a call of the system. -/
def attempt {α : Type} (call : IO α) : IO (Except SystemError α) :=
  try return .ok (← call) catch e => return .error (systemError e)

/-- Tells the operator something. -/
def tell (n : Notice) : IO Unit :=
  IO.eprintln s!"[{n.level.name}] {n.text}"

/-- Leaves what a program ends with, and gives its status. -/
def leave (e : Exit) : IO UInt32 := do
  IO.print e.output
  IO.eprint e.complaint
  return e.status.toUInt32

/-! ## Files -/

/-- What a path stands for. -/
def contentAt (path : String) : IO Content := do
  let here ← IO.currentDir
  if ← (here / path).isDir then return .directory
  match ← attempt (IO.FS.readBinFile path) with
  | .ok bytes => return .file bytes
  | .error cause => return .unreadable cause

/-- A directory with all it holds. -/
def directoryAt (path : String) : IO Directory := do
  let here ← IO.currentDir
  match ← attempt (here / path).readDir with
  | .error cause => return ⟨path, .error cause⟩
  | .ok entries =>
    let entries ← entries.toList.mapM fun e => do
      return (⟨e.fileName, ← contentAt s!"{path}/{e.fileName}"⟩ : Entry)
    return ⟨path, .ok entries⟩

/-- The environment files of a directory that lies some levels up. -/
def environmentFiles (up : Nat) : IO (List Entry) := do
  let here ← IO.currentDir
  let names := (DotenvPlace.all.map fun p => p.name).eraseDups
  let entries ← names.mapM fun name => do
    let path := (DotenvPlace.mk up name).path
    if ← (here / path).pathExists then return some (⟨name, ← contentAt path⟩ : Entry) else return none
  return entries.filterMap id

/-- The variables of the process. -/
def processVariables : IO Environment := do
  match ← attempt (IO.FS.readBinFile "/proc/self/environ") with
  | .error _ => return .empty
  | .ok bytes =>
    let pieces := Text.splitOn (0 : UInt8) bytes.toList
    return ⟨pieces.filterMap fun piece => do
      let text ← String.fromUTF8? (ByteArray.mk piece.toArray)
      let name := text.toList.takeWhile (· ≠ '=')
      let value := (text.toList.dropWhile (· ≠ '=')).drop 1
      if name.isEmpty then none else some (String.ofList name, String.ofList value)⟩

/-- The environment with the defaults of environment files. -/
def environment : IO Environment := do
  let depth := (← IO.currentDir).components.length
  let directories ← (List.range depth).mapM environmentFiles
  let (env, notices) := (← processVariables).load directories
  notices.forM tell
  return env

/-! ## Connections -/

/-- A connection, with what was received and is not yet a whole line. -/
structure Wire where
  socket : TCP.Socket.Client
  buffer : IO.Ref (List UInt8)

namespace Wire

/-- The connection of a socket. -/
def ofSocket (socket : TCP.Socket.Client) : IO Wire := do
  return ⟨socket, ← IO.mkRef []⟩

/-- The next line, unless the other side has ended the connection. -/
partial def nextLine (w : Wire) : Async (Option (List UInt8)) := do
  let buffer ← w.buffer.get
  match Text.firstLine? buffer with
  | some (line, rest) =>
    w.buffer.set rest
    return some line
  | none =>
    match ← w.socket.recv? 4096 with
    | some bytes =>
      w.buffer.set (buffer ++ bytes.toList)
      w.nextLine
    | none =>
      w.buffer.set []
      return if buffer.isEmpty then none else some buffer

/-- Sends a line. -/
def sendLine (w : Wire) (line : List Char) : Async Unit :=
  w.socket.send (String.ofList (line ++ ['\n'])).toUTF8

end Wire

/-- Serves a connection on which reports come in. -/
partial def receive (queue : Std.CloseableChannel Message) (w : Wire) : Async Unit := do
  match ← w.nextLine with
  | none => return
  | some line =>
    match ReportConnection.fresh.read true line with
    | (c, none) => if c.phase = .closed then w.socket.shutdown else receive queue w
    | (_, some m) =>
      queue.sync.send m
      w.sendLine Acknowledgement.line
      receive queue w

/-- Serves every connection that is made to a port. -/
partial def accept (server : TCP.Socket.Server) (queue : Std.CloseableChannel Message) : Async Unit := do
  let w ← Wire.ofSocket (← server.accept)
  background (receive queue w)
  accept server queue

/-- A port on which connections can be made. -/
def listen (port : UInt16) : IO TCP.Socket.Server := do
  let server ← TCP.Socket.Server.mk
  server.bind (.v4 ⟨.ofParts 0 0 0 0, port⟩)
  server.listen 1024
  return server

/-- A connection to a host. -/
def connect (host : String) (port : UInt16) : Async Wire := do
  let addresses ← DNS.getAddrInfo host (toString port.toNat)
  match addresses[0]? with
  | none => throw (IO.userError "no address for the host")
  | some address =>
    let socket ← TCP.Socket.Client.mk
    socket.connect (match address with
      | .v4 ip => .v4 ⟨ip, port⟩
      | .v6 ip => .v6 ⟨ip, port⟩)
    Wire.ofSocket socket

/-! ## The agent -/

/-- What an agent holds while it serves: the messages that come in and the file of its log. -/
structure Station where
  queue : Std.CloseableChannel Message
  file : IO.FS.Handle

/-- What the replicated system does with a line. -/
def exchangeLine (w : Wire) (line : List Char) : IO Reaction := do
  match ← attempt (w.sendLine line).block with
  | .error cause => return .broken cause
  | .ok () =>
    match ← attempt w.nextLine.block with
    | .ok (some reply) => return .reply reply
    | _ => return .hangUp

/-- The link as it is for one decision, which is sent out to see how the other side reacts, and the
connection that it leaves. A connection is made for the first decision. -/
def transmit (s : Settings) (wire : Option Wire) (d : Directive) : IO (EntityLink × Option Wire) := do
  let address := EntityLink.addressOf s.entityHost s.entityPort
  let connected ← match wire with
    | some w => pure (.ok w)
    | none => attempt (connect s.entityHost s.entityPort).block
  match connected with
  | .error cause => return (⟨address, .error cause, [], []⟩, none)
  | .ok w => return (⟨address, .ok (), [], [← exchangeLine w (Message.ofDirective d).line]⟩, some w)

/-- Writes what has reached the device of a log to its file. -/
def save {s : Settings} (station : Station) (c : AgentController s) : IO (AgentController s) := do
  let (text, log) := c.log.drain
  station.file.putStr text
  station.file.flush
  return { c with log := log }

/-- Handles a report, and books the time that it took on the decision. -/
def handle {s : Settings} (c : AgentController s) (r : StateReport) :
    IO (Handled (Forest.learner s.forest) Random.ChaCha) := do
  let started ← IO.monoNanosNow
  let h := c.handleReport r Cost.free
  match h.outcome with
  | .ok (.switch _) =>
    let seconds := Float.ofNat ((← IO.monoNanosNow) - started) / 1.0e9
    return { h with controller := AgentProgram.book h.controller (AgentProgram.costOf h.work seconds) }
  | _ => return h

/-- Delivers a directive over the connection, if there is one already, and saves the log. -/
def deliver (station : Station) (s : Settings) (c : AgentController s) (wire : Option Wire) (work : Work)
    (d : Directive) : IO (Served (Forest.learner s.forest) Random.ChaCha (Option Wire) LinkError) := do
  let (link, wire) ← transmit s wire d
  let served := c.deliver link work d
  return ⟨← save station served.controller, wire, served.work, served.outcome⟩

/-- Serves reports until the episodes are over or something fails. -/
def serve (station : Station) (s : Settings) (c : AgentController s) :
    IO (AgentController s × Except (RunError LinkError) Unit) := do
  let (c, _, outcome) ← Controller.runWith station.queue.sync.recv
    (Controller.serveWith handle (deliver station s)) (s.episodes - c.episode) c none
  return (c, outcome)

/-- The moment it is. -/
def now : IO Timestamp := do
  let t ← Std.Time.PlainDateTime.now
  return ⟨t.year.toInt.toNat, t.month.toNat, t.day.toNat, t.hour.toNat, t.minute.toNat, t.second.toNat⟩

/-- Makes the file of a log. -/
def createLog (s : Settings) : IO (Except LogError TrainingLog × Option IO.FS.Handle) := do
  let stamp ← now
  let directory ← attempt (IO.FS.createDirAll s.dataDirectory)
  let path := s!"{s.dataDirectory}/{TrainingLog.fileName stamp s.unit}"
  let file ← match directory with
    | .ok () => attempt (IO.FS.Handle.mk path .write)
    | .error cause => pure (.error cause)
  return (TrainingLog.create s.dataDirectory stamp s.unit directory (file.map fun _ => .reliable),
    file.toOption)

/-- Runs an agent whose controller and log are ready. -/
def runController (s : Settings) (c : AgentController s) (file : IO.FS.Handle) : IO Exit := do
  match ← attempt (listen s.agentPort) with
  | .error cause =>
    return .failure (AgentError.port (AgentProgram.listeningAddress s) cause)
  | .ok server =>
    let station : Station := ⟨← Std.CloseableChannel.new, file⟩
    let _ ← (accept server station.queue).asTask
    let (c, outcome) ← serve station s c
    station.queue.sync.close
    let _ ← save station { c with log := c.log.close }
    return AgentProgram.exitOf outcome

/-- Runs the agent. -/
def agent (words : List String) : IO Exit := do
  let env ← environment
  match AgentProgram.request words env with
  | .error exit => return exit
  | .ok s =>
    s.notices.forM tell
    let history := (← directoryAt s.snapshotDirectory).loadSnapshots s.unit
    history.warnings.forM fun text => tell (.warn text)
    match AgentProgram.strategy s history.rows with
    | .error e => return .failure e
    | .ok _ =>
      let (log, file) ← createLog s
      match AgentProgram.controller s history.rows log, file with
      | .error e, _ => return .failure e
      | .ok c, some file => runController s c file
      | .ok _, none => return .success ""

/-- Runs the report program. -/
def report (words : List String) : IO Exit := do
  let _ ← environment
  match ReportProgram.request words with
  | .error exit => return exit
  | .ok (unit, path) => return ReportProgram.conclude unit (← directoryAt path)

end AdaptiveConsensus.Main

open AdaptiveConsensus in
def main (words : List String) : IO UInt32 := do
  let name := ((← IO.appPath).fileName).getD ""
  let reportName := ReportOptions.command.program
  let exit ←
    if name = reportName then Main.report words
    else match words with
      | first :: rest => if first = reportName then Main.report rest else Main.agent words
      | [] => Main.agent words
  Main.leave exit
