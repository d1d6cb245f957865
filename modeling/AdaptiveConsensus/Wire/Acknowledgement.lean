import AdaptiveConsensus.Json.Value

/-!
# Acknowledgements

Every message is answered by an acknowledgement, which carries nothing (comm/wire.rs:63-65).
-/

namespace AdaptiveConsensus

open Json

namespace Acknowledgement

/-- The line of an acknowledgement, without its end. -/
def line : List Char := ['\x7b', '\x7d']

/-- Whether a value acknowledges a message: any object does, and so does an empty array. -/
def ofValue : Value → Bool
  | .object fields => fields.all fun (key, _) => key.decode?.isSome
  | .array items => items.isEmpty
  | _ => false

/-- Whether a line acknowledges a message. -/
def accepts (text : List Char) : Bool :=
  match Value.parse? text with
  | some v => ofValue v
  | none => false

end Acknowledgement

end AdaptiveConsensus
