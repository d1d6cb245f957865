import AdaptiveConsensus.Decimal.Read
import AdaptiveConsensus.Power

/-!
# Reading and writing whole numbers

Whole numbers of options (main.rs:24-51), file names (rl/snapshot.rs:97-102) and message keys
(comm/wire.rs:35) are read with leading zeros and an optional plus sign, and refused outside the range
of the word they are kept in.
-/

namespace AdaptiveConsensus.Decimal

/-- A natural number of at most `largest`. -/
def readNat (largest : Nat) (text : List Char) : Option Nat :=
  let digits := match text with
    | '+' :: rest => rest
    | _ => text
  if digits.isEmpty || !digits.all Char.isDigit then none
  else
    let n := digitsValue digits
    if n ≤ largest then some n else none

/-- A whole number of the 64-bit signed range. -/
def readInt64 (text : List Char) : Option Int :=
  match text with
  | '-' :: digits =>
    if digits.isEmpty || !digits.all Char.isDigit then none
    else
      let n := digitsValue digits
      if n ≤ twoTo 63 then some (-(n : Int)) else none
  | _ => (readNat (twoTo 63 - 1) text).map fun n => (n : Int)

/-- The largest 64-bit word. -/
def largestWord64 : Nat := twoTo 64 - 1

/-- A 64-bit word. -/
def readWord64 (text : List Char) : Option UInt64 :=
  (readNat largestWord64 text).map UInt64.ofNat

/-- A 32-bit word. -/
def readWord32 (text : List Char) : Option UInt32 :=
  (readNat (twoTo 32 - 1) text).map UInt32.ofNat

/-- A 16-bit word. -/
def readWord16 (text : List Char) : Option UInt16 :=
  (readNat (twoTo 16 - 1) text).map UInt16.ofNat

/-- The digits of a natural number. -/
def natText (n : Nat) : List Char :=
  Nat.toDigits 10 n

end AdaptiveConsensus.Decimal
