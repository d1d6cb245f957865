import AdaptiveConsensus.Decimal.Shortest
import AdaptiveConsensus.Power

/-!
# Reading numbers

The text of a number (rl/snapshot.rs:65-78, utils/training_log.rs:42-61) is an optional sign followed by
`inf`, `infinity` or `nan` in any letter case, or by digits with an optional point and an optional
exponent; at least one digit stands before the exponent. Nothing else is allowed, no blank either. The
value is the number nearest to the exact decimal.
-/

namespace AdaptiveConsensus.Decimal

/-- Why a text is no number. -/
inductive NumberError where
  | empty
  | invalid
  deriving DecidableEq, Repr

/-- The wording of a cause. -/
def NumberError.message : NumberError → String
  | .empty => "cannot parse float from empty string"
  | .invalid => "invalid float literal"

/-- The value of a row of digits. -/
def digitsValue (digits : List Char) : Nat :=
  digits.foldl (fun n c => 10 * n + (c.toNat - '0'.toNat)) 0

/-- A text without its sign, and whether the sign is a minus. -/
def splitSign : List Char → Bool × List Char
  | '-' :: rest => (true, rest)
  | '+' :: rest => (false, rest)
  | text => (false, text)

/-- The exponent part of a number: nothing, or `e` and a whole number with an optional sign. -/
def readExponent : List Char → Option Int
  | [] => some 0
  | c :: rest =>
    if c = 'e' ∨ c = 'E' then
      let (negative, digits) := splitSign rest
      if digits.isEmpty || !digits.all Char.isDigit then none
      else some (if negative then -(digitsValue digits : Int) else digitsValue digits)
    else none

/-- An unsigned decimal. -/
def readDecimal (text : List Char) : Option Number :=
  let whole := text.takeWhile Char.isDigit
  let afterWhole := text.dropWhile Char.isDigit
  let (fraction, tail) := match afterWhole with
    | '.' :: rest => (rest.takeWhile Char.isDigit, rest.dropWhile Char.isDigit)
    | rest => ([], rest)
  if whole.isEmpty && fraction.isEmpty then none
  else (readExponent tail).map fun e => ⟨digitsValue (whole ++ fraction), e - fraction.length⟩

/-- The bit pattern of the number nearest to a decimal. What lies far outside the range of the
64-bit format is settled by its size, so that no huge power of ten is computed. -/
def BinaryFormat.ofDecimal (format : BinaryFormat) (d : Number) : Nat :=
  let leading : Int := digitCount d.coefficient + d.exponent
  if d.coefficient = 0 then 0
  else if 400 < leading then format.infinityBits
  else if leading < -400 then 0
  else format.nearest (d.coefficient * tenTo d.exponent.toNat) (tenTo (-d.exponent).toNat)

/-- The number that a text stands for. -/
def readFloat (text : List Char) : Except NumberError Float :=
  if text.isEmpty then .error .empty
  else
    let (negative, body) := splitSign text
    let word := String.ofList (body.map Char.toLower)
    if word = "inf" ∨ word = "infinity" then .ok (ofMagnitude64 negative binary64.infinityBits)
    else if word = "nan" then .ok (ofMagnitude64 negative (binary64.infinityBits + 1))
    else match readDecimal body with
      | some d => .ok (ofMagnitude64 negative (binary64.ofDecimal d))
      | none => .error .invalid

end AdaptiveConsensus.Decimal
