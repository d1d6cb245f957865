import AdaptiveConsensus.Protocol

/-!
# Directives

The answer to one report (models/decision.rs:32-55): keep the protocol that is running, or switch to one
of the pool.
-/

namespace AdaptiveConsensus

/-- What the replicated system is told to do. -/
inductive Directive where
  | keep
  | switch (p : Protocol)
  deriving DecidableEq, Repr

namespace Directive

/-- The word for keeping the running protocol. -/
def keepName : String := "repeat"

/-- The name of a directive in a message. -/
def name : Directive → String
  | keep => keepName
  | switch p => p.name

/-- The directive of a name. Only a protocol's name may stand between blanks or in another letter
case. -/
def read (text : String) : Except UnknownProtocol Directive :=
  if text = keepName then .ok keep
  else (Protocol.read text.toList).map switch

end Directive

end AdaptiveConsensus
