import AdaptiveConsensus.Json.Token

/-!
# JSON values

A value (comm/wire.rs:29-38, 63-65) is built from tokens by a machine that remembers the arrays and
objects it stands in. The machine reads each token once, so that neither the depth nor the length of a
text has a bound. An object keeps repeated keys: what becomes of them is for its reader to say.
-/

namespace AdaptiveConsensus.Json

/-- A JSON value as it is written. -/
inductive Value where
  | null
  | bool (b : Bool)
  | number (n : Numeral)
  | string (s : Quoted)
  | array (items : List Value)
  | object (fields : List (Quoted × Value))

/-- What a value being read stands in: an array or an object, with what precedes it there, the
latest first. -/
inductive Frame where
  | item (before : List Value)
  | field (before : List (Quoted × Value)) (key : Quoted)

/-- Where the machine stands. Each place comes with the arrays and objects around it, the innermost
first. -/
inductive Place where
  /-- A value comes next. -/
  | value (outer : List Frame)
  /-- An array was opened: its first item or its end comes next. -/
  | firstItem (outer : List Frame)
  /-- An object was opened: its first key or its end comes next. -/
  | firstKey (outer : List Frame)
  /-- A comma in an object: another key comes next. -/
  | key (before : List (Quoted × Value)) (outer : List Frame)
  /-- A key: its colon comes next. -/
  | colon (before : List (Quoted × Value)) (key : Quoted) (outer : List Frame)
  /-- A value is complete. -/
  | complete (v : Value) (outer : List Frame)

namespace Place

/-- The place after the first token of a value. -/
def start (outer : List Frame) : Token → Option Place
  | .null => some (complete .null outer)
  | .bool b => some (complete (.bool b) outer)
  | .number n => some (complete (.number n) outer)
  | .string s => some (complete (.string s) outer)
  | .openArray => some (firstItem outer)
  | .openObject => some (firstKey outer)
  | _ => none

/-- The place after a complete value and the next token. -/
def follow (v : Value) : List Frame → Token → Option Place
  | .item before :: outer, .comma => some (value (.item (v :: before) :: outer))
  | .item before :: outer, .closeArray => some (complete (.array (v :: before).reverse) outer)
  | .field before k :: outer, .comma => some (key ((k, v) :: before) outer)
  | .field before k :: outer, .closeObject =>
    some (complete (.object ((k, v) :: before).reverse) outer)
  | _, _ => none

/-- The place after one more token, which may not be allowed there. -/
def step : Place → Token → Option Place
  | value outer, t => start outer t
  | firstItem outer, .closeArray => some (complete (.array []) outer)
  | firstItem outer, t => start (.item [] :: outer) t
  | firstKey outer, .closeObject => some (complete (.object []) outer)
  | firstKey outer, .string k => some (colon [] k outer)
  | firstKey _, _ => none
  | key before outer, .string k => some (colon before k outer)
  | key _ _, _ => none
  | colon before k outer, .colon => some (value (.field before k :: outer))
  | colon _ _ _, _ => none
  | complete v outer, t => follow v outer t

/-- The value that the machine has read, if nothing is open. -/
def result? : Place → Option Value
  | complete v [] => some v
  | _ => none

end Place

namespace Value

/-- The value that a row of tokens is. -/
def ofTokens? (tokens : List Token) : Option Value :=
  (tokens.foldlM Place.step (.value [])).bind Place.result?

/-- The value that a text is. -/
def parse? (text : List Char) : Option Value :=
  (Token.all text).bind ofTokens?

end Value

end AdaptiveConsensus.Json
