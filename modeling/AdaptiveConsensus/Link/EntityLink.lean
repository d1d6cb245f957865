import AdaptiveConsensus.Episode.Sink
import AdaptiveConsensus.Text.Split
import AdaptiveConsensus.Wire.Acknowledgement
import AdaptiveConsensus.Wire.Message

/-!
# The link to the replicated system

Decisions go out over one connection (comm/client.rs:12-81), which is made when the first of them is
sent and never made again. Each decision is a line that has to be acknowledged by a line. What the other
side does is given as a list of reactions, one for each line it is sent.

* `EntityLink.send`: sends a decision; the link is a `DecisionSink`.
-/

namespace AdaptiveConsensus

/-- What the replicated system does with a line. -/
inductive Reaction where
  | reply (line : List UInt8)
  | hangUp
  /-- The line cannot be sent to it. -/
  | broken (cause : SystemError)
  deriving DecidableEq, Repr

/-- Why a decision was not delivered. -/
inductive LinkError where
  | connect (address : String) (cause : SystemError)
  | write (cause : SystemError)
  | read (cause : SystemError)
  | closed
  | unexpected (reply : String)
  deriving DecidableEq, Repr

instance : Cause LinkError where
  chain
    | .connect address cause => [s!"Failed to connect to entity at {address}", cause.message]
    | .write cause => ["Failed to send decision", cause.message]
    | .read cause => ["Failed to read decision acknowledgement", cause.message]
    | .closed => ["Entity closed the connection"]
    | .unexpected reply => [s!"Unexpected acknowledgement: {reply}"]

namespace LinkError

/-- The wording without causes. -/
def headline (e : LinkError) : String :=
  (Cause.chain e).headD ""

end LinkError

/-- The link, with what has passed over it and what is to come. -/
structure EntityLink where
  address : String
  /-- What became of the connection, once it was asked for. -/
  connection : Except SystemError Unit
  /-- The lines sent, the latest last. -/
  sent : List (List Char)
  /-- What the other side will do with the next lines. -/
  reactions : List Reaction

namespace EntityLink

/-- The address of a host and a port. -/
def addressOf (host : String) (port : UInt16) : String :=
  s!"{host}:{port.toNat}"

/-- Judges the line that answers a decision. -/
def judge (reply : List UInt8) : Except LinkError Unit :=
  match String.fromUTF8? (ByteArray.mk reply.toArray) with
  | none => .error (.read .notText)
  | some text =>
    if Acknowledgement.accepts text.toList then .ok () else .error (.unexpected text)

/-- The outcome of a decision to which the other side reacts. -/
def outcomeOf : Option Reaction → Except LinkError Unit
  | some (.reply line) => judge line
  | some (.broken cause) => .error (.write cause)
  | some .hangUp | none => .error .closed

/-- Sends a decision. -/
def send (link : EntityLink) (d : Directive) : EntityLink × Except LinkError Unit :=
  match link.connection with
  | .error cause => (link, .error (.connect link.address cause))
  | .ok () =>
    ({ link with
        sent := link.sent ++ [(Message.ofDirective d).line]
        reactions := link.reactions.tail },
      outcomeOf link.reactions.head?)

instance : DecisionSink EntityLink LinkError where
  send := send

end EntityLink

end AdaptiveConsensus
