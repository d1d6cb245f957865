import AdaptiveConsensus.Json.Value
import AdaptiveConsensus.Protocol

/-!
# Protocol names as JSON

A protocol is written as the text of its name (models/protocol.rs:19-30). Here blanks and letter case
matter.
-/

namespace AdaptiveConsensus

open Json

namespace Protocol

/-- A protocol as a JSON text. -/
def json (p : Protocol) : List Char :=
  quote p.name.toList

/-- The protocol of a quoted name. -/
def ofQuoted? (s : Quoted) : Option Protocol := do
  let text ← s.decode?
  pool.find? fun p => p.name.toList == text

/-- The protocol that a value is: its name, or an object in which the name has no content. -/
def ofValue? : Value → Option Protocol
  | .string s => ofQuoted? s
  | .object [(key, .null)] => ofQuoted? key
  | _ => none

/-- The protocol that a JSON text is. -/
def ofJson? (text : List Char) : Option Protocol :=
  (Value.parse? text).bind ofValue?

end Protocol

end AdaptiveConsensus
