import AdaptiveConsensus.Text.Blank
import AdaptiveConsensus.Wire.Message

/-!
# Taking in reports

The replicated system may hold any number of connections to the agent. On each of them the agent reads a
line, hands the message that it is to the controller, and acknowledges it; then it reads the next one
(comm/server.rs:56-74). Blank lines are passed over. A line that is no message ends its connection, as
does a message that nobody takes or an acknowledgement that cannot be written.

* `ReportConnection.receive`, `ReportConnection.handOver`: one line, and the message that it is.
* `ReportConnection.acknowledge`: the acknowledgement it calls for.
-/

namespace AdaptiveConsensus

/-- What a line that comes in is. -/
inductive Incoming where
  | blank
  | report (m : Message)
  | malformed

namespace Incoming

/-- What a text is. -/
def ofText (text : List Char) : Incoming :=
  if Text.isBlankLine text then blank
  else match Message.decode? text with
    | some m => report m
    | none => malformed

/-- What the bytes of a line are; bytes that are no text are malformed. -/
def ofBytes (line : List UInt8) : Incoming :=
  match String.fromUTF8? (ByteArray.mk line.toArray) with
  | some text => ofText text.toList
  | none => malformed

/-- Whether a line is blank. -/
def isBlank : Incoming → Bool
  | blank => true
  | _ => false

end Incoming

/-- What a connection does next. -/
inductive ConnectionPhase where
  | reading
  /-- A message was read and is still to be handed over. -/
  | holding (m : Message)
  /-- A message was handed over and is still to be acknowledged. -/
  | owing
  | closed
  deriving DecidableEq

/-- A connection on which reports come in, with what has passed over it. -/
structure ReportConnection where
  /-- The lines read, the latest last. -/
  lines : List (List UInt8)
  /-- The messages handed over, the latest last. -/
  accepted : List Message
  /-- How many acknowledgements were written. -/
  acknowledged : Nat
  phase : ConnectionPhase

namespace ReportConnection

/-- A connection that was just made. -/
def fresh : ReportConnection := ⟨[], [], 0, .reading⟩

/-- What the lines that were read are, without the blank ones. -/
def incoming (c : ReportConnection) : List Incoming :=
  (c.lines.map Incoming.ofBytes).filter fun line => !line.isBlank

/-- The connection after a line was read. -/
def receive (c : ReportConnection) (line : List UInt8) : ReportConnection :=
  { c with
    lines := c.lines ++ [line]
    phase := match Incoming.ofBytes line with
      | .blank => c.phase
      | .malformed => .closed
      | .report m => .holding m }

/-- The connection after it has handed over the message that it holds, and that message. Whether
anybody takes messages is given. -/
def handOver (c : ReportConnection) (taken : Bool) : ReportConnection × Option Message :=
  match c.phase with
  | .holding m =>
    if taken then ({ c with accepted := c.accepted ++ [m], phase := .owing }, some m)
    else ({ c with phase := .closed }, none)
  | _ => (c, none)

/-- The connection after a line was read and the message that it is was handed over. -/
def read (c : ReportConnection) (taken : Bool) (line : List UInt8) :
    ReportConnection × Option Message :=
  (c.receive line).handOver taken

/-- The connection after an acknowledgement was written or could not be. -/
def acknowledge (c : ReportConnection) (written : Bool) : ReportConnection :=
  if written then { c with acknowledged := c.acknowledged + 1, phase := .reading }
  else { c with phase := .closed }

/-- The connection after the other side has ended it. -/
def finish (c : ReportConnection) : ReportConnection :=
  { c with phase := .closed }

end ReportConnection

end AdaptiveConsensus
