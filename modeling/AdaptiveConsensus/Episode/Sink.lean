import AdaptiveConsensus.Cause
import AdaptiveConsensus.Directive

/-!
# Decision sinks

The controller hands each directive to a sink (comm/client.rs:12-15), which delivers it or gives the
reason for which it could not. The outbox is the plainest sink.
-/

namespace AdaptiveConsensus

/-- A receiver of directives with state `σ` that can fail for a reason of type `ε`. -/
class DecisionSink (σ : Type) (ε : outParam Type) where
  send : σ → Directive → σ × Except ε Unit

/-- A sink that keeps what it is sent, the latest last, until it is closed. -/
structure Outbox where
  sent : List Directive
  closed : Bool
  deriving DecidableEq, Repr

/-- An outbox is closed. -/
inductive OutboxError where
  | closed
  deriving DecidableEq, Repr

instance : Cause OutboxError where
  chain
    | .closed => ["sink closed"]

namespace Outbox

/-- An open outbox without directives. -/
def empty : Outbox := ⟨[], false⟩

instance : DecisionSink Outbox OutboxError where
  send box d :=
    if box.closed then (box, .error .closed) else ({ box with sent := box.sent ++ [d] }, .ok ())

end Outbox

end AdaptiveConsensus
