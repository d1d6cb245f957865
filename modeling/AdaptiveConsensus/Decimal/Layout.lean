import AdaptiveConsensus.Decimal.Shortest
import AdaptiveConsensus.Power

/-!
# Decimals as text

Three texts of a number are in use (utils/training_log.rs:32-40, comm/wire.rs:35,
bin/report_buckets.rs:93-96). Rows and messages for people take the shortest digits and never an
exponent (`display64`, `display32`); report messages take the shortest digits with an exponent where the
number is far from one (`json32`); costs and means take a fixed number of places (`fixed64`).
-/

namespace AdaptiveConsensus.Decimal

/-- How a number is written: where an exact tie between two shortest decimals goes, which decimal
exponents of the leading digit are written without exponent, whether a whole number gets a point
and a zero, and the words for what is no finite number. -/
structure Layout where
  tie : Tie
  plain : Int → Bool
  wholePoint : Bool
  notFinite : Bool → String
  notNumber : String

/-- Rows: never an exponent, no point in a whole number, a tie goes up. -/
def rowLayout : Layout where
  tie := .up
  plain := fun _ => true
  wholePoint := false
  notFinite := fun negative => if negative then "-inf" else "inf"
  notNumber := "NaN"

/-- Report messages: an exponent outside `-6 .. 12`, a whole number ends with `.0`, a tie goes to
the even digit, and what is no finite number is `null`. -/
def messageLayout : Layout where
  tie := .even
  plain := fun e => -6 ≤ e && e ≤ 12
  wholePoint := true
  notFinite := fun _ => "null"
  notNumber := "null"

/-- A row of zeros. -/
def zeros (count : Nat) : List Char :=
  List.replicate count '0'

/-- A decimal without exponent. -/
def plainText (wholePoint : Bool) (d : Number) : List Char :=
  let digits := Nat.toDigits 10 d.coefficient
  let point : Int := digits.length + d.exponent
  if 0 ≤ d.exponent then
    digits ++ zeros d.exponent.toNat ++ if wholePoint then ['.', '0'] else []
  else if 0 < point then
    digits.take point.toNat ++ '.' :: digits.drop point.toNat
  else
    '0' :: '.' :: (zeros (-point).toNat ++ digits)

/-- A decimal with one digit before the point and a signed exponent. -/
def scientificText (d : Number) : List Char :=
  let digits := Nat.toDigits 10 d.coefficient
  let leading : Int := digits.length + d.exponent - 1
  let fraction := digits.drop 1
  digits.take 1 ++ (if fraction.isEmpty then [] else '.' :: fraction) ++
    'e' :: (if leading < 0 then '-' else '+') :: Nat.toDigits 10 leading.natAbs

/-- A minus sign before a negative number. -/
def signed (negative : Bool) (text : List Char) : List Char :=
  if negative then '-' :: text else text

/-- A decimal in a layout. -/
def Layout.decimalText (layout : Layout) (d : Number) : List Char :=
  let leading : Int := digitCount d.coefficient + d.exponent - 1
  if layout.plain leading then plainText layout.wholePoint d else scientificText d

/-- The shortest text of a number in a layout. -/
def Layout.text (layout : Layout) (format : BinaryFormat) : Decoded → List Char
  | .nan => layout.notNumber.toList
  | .infinite negative => (layout.notFinite negative).toList
  | .finite negative mantissa exponent =>
    signed negative (layout.decimalText (format.shortest layout.tie mantissa exponent))

/-- A 64-bit number in a row: the fewest digits that read back, without exponent. -/
def display64 (x : Float) : List Char :=
  rowLayout.text binary64 (decode64 x)

/-- A 32-bit number in a row: the fewest digits that read back, without exponent. -/
def display32 (x : Float32) : List Char :=
  rowLayout.text binary32 (decode32 x)

/-- A 32-bit number in a report message. -/
def json32 (x : Float32) : List Char :=
  messageLayout.text binary32 (decode32 x)

/-- `numerator / 10^places`, written with that many places. -/
def placesText (places numerator : Nat) : List Char :=
  let digits := Nat.toDigits 10 numerator
  let padded := zeros (places + 1 - digits.length) ++ digits
  let whole := padded.length - places
  padded.take whole ++ '.' :: padded.drop whole

/-- A 64-bit number with a fixed number of places: its exact value rounded to them, an exact tie
going to the even digit. A negative number keeps its sign when it rounds to zero. -/
def fixed64 (places : Nat) (x : Float) : List Char :=
  match decode64 x with
  | .finite negative mantissa exponent =>
    signed negative <| placesText places <|
      roundDiv (mantissa * twoTo exponent.toNat * tenTo places) (twoTo (-exponent).toNat)
  | .infinite negative => (rowLayout.notFinite negative).toList
  | .nan => rowLayout.notNumber.toList

end AdaptiveConsensus.Decimal
