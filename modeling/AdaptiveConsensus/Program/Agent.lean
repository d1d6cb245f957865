import AdaptiveConsensus.Config.Settings
import AdaptiveConsensus.Episode.Run
import AdaptiveConsensus.Link.EntityLink
import AdaptiveConsensus.Program.Exit
import AdaptiveConsensus.Random.ChaCha
import AdaptiveConsensus.Snapshot.Directory

/-!
# The agent program

The agent reads its settings, loads the history of its unit, builds its strategy, opens its training log
and its port, and then serves reports until its episodes are over (main.rs:91-137). Whatever fails first
ends it.

* `AgentProgram.request`: the settings that a command line asks for.
* `AgentProgram.controller`: the controller at the start of a run.
* `AgentProgram.run`: the whole of it, where the world answers as it is told to.
-/

namespace AdaptiveConsensus

open AdaptiveConsensus.Random

/-- Why the agent ended early. -/
inductive AgentError where
  | configuration (cause : ChoiceError)
  | strategy (cause : BucketError)
  | log (cause : LogError)
  | port (address : String) (cause : SystemError)
  | run (cause : RunError LinkError)

instance : Cause AgentError where
  chain
    | .configuration cause => ["Invalid agent configuration", cause.message]
    | .strategy cause => ["Failed to initialise strategy", cause.message]
    | .log cause => Cause.chain cause
    | .port address cause => [s!"Failed to bind report server on {address}", cause.message]
    | .run cause => Cause.chain cause

/-- The controller of an agent with given settings. -/
abbrev AgentController (s : Settings) : Type :=
  Controller (Forest.learner s.forest) ChaCha

/-- What the world answers to an agent: the history it finds, the log and the port it gets, the
messages that come in, and the link over which its decisions go out. -/
structure AgentWorld where
  snapshots : Directory
  log : Except LogError TrainingLog
  port : Except SystemError Unit
  messages : List Message
  link : EntityLink

/-- A run of the agent: how it ended, the lines it sent, and the log it leaves behind if it got as
far as opening one. -/
structure AgentRun where
  exit : Exit
  sent : List (List Char)
  log : Option String

namespace AgentProgram

/-- The settings that a command line and an environment ask for. -/
def request (words : List String) (env : Environment) : Except Exit Settings :=
  match Settings.read words env with
  | .error (.usage e) => .error (.ofUsage AgentOptions.command e)
  | .error (.choice e) => .error (.failure (AgentError.configuration e))
  | .ok s => .ok s

/-- The strategy of the settings, seeded with a history. -/
def strategy (s : Settings) (history : List HistoryRow) :
    Except AgentError (Strategy (Forest.learner s.forest) ChaCha) :=
  let built := Strategy.build s.strategy ⟨s.replayCap, s.oneHot⟩ history (ChaCha.ofSeed s.seed)
  match built.outcome with
  | .error e => .error (.strategy e)
  | .ok () => .ok built.strategy

/-- The controller at the start of a run. The log is opened after the strategy was built. -/
def controller (s : Settings) (history : List HistoryRow) (log : Except LogError TrainingLog) :
    Except AgentError (AgentController s) :=
  match strategy s history with
  | .error e => .error e
  | .ok strategy =>
    match log with
    | .error e => .error (.log e)
    | .ok log => .ok (Controller.start strategy log s.discard)

/-- The time that an episode took, booked on refitting if something was refitted and else on scoring,
if a model was asked. -/
def costOf (w : Work) (seconds : Float) : Cost :=
  if w.fits.isEmpty then ⟨0.0, if w.queries.isEmpty then 0.0 else seconds⟩ else ⟨seconds, 0.0⟩

/-- The controller with a cost for the decision made last, which is known only when it was made. -/
def book {s : Settings} (c : AgentController s) (cost : Cost) : AgentController s :=
  match c.pending.getLast? with
  | none => c
  | some d => { c with pending := c.pending.dropLast ++ [{ d with cost := cost }] }

/-- The address on which reports come in. -/
def listeningAddress (s : Settings) : String :=
  s!"0.0.0.0:{s.agentPort.toNat}"

/-- The end of an agent whose run had an outcome. -/
def exitOf : Except (RunError LinkError) Unit → Exit
  | .ok () => .success ""
  | .error e => .failure (AgentError.run e)

/-- The run of an agent with given settings. -/
def serve (w : AgentWorld) (s : Settings) : AgentRun :=
  match controller s (w.snapshots.loadSnapshots s.unit).rows w.log with
  | .error e => ⟨.failure e, [], none⟩
  | .ok c =>
    match w.port with
    | .error e =>
      ⟨.failure (AgentError.port (listeningAddress s) e), [], some c.log.close.content⟩
    | .ok () =>
      let r := c.run (fun _ => Cost.free) s.episodes w.link w.messages
      ⟨exitOf r.outcome, r.sink.sent, some r.controller.log.close.content⟩

/-- The run of an agent from its command line on. The world may depend on the settings. -/
def run (world : Settings → AgentWorld) (words : List String) (env : Environment) : AgentRun :=
  match request words env with
  | .error exit => ⟨exit, [], none⟩
  | .ok s => serve (world s) s

end AgentProgram

end AdaptiveConsensus
