import AdaptiveConsensus.Decimal.Binary
import AdaptiveConsensus.Power

/-!
# The shortest decimal of a binary number

A decimal stands for a binary number if rounding it gives that number back, as the numbers of the
training log do (utils/training_log.rs:32-40). The shortest text of a number takes the fewest
significant digits with which that holds and, of the decimals with so many digits, the nearest one. The
search goes through decimal grids from coarse to fine (`Neighbourhood.onGrid`) and stops at the first
with a point in the interval of all decimals that round to the number.
-/

namespace AdaptiveConsensus.Decimal

/-- Where a value halfway between two decimals goes: to the larger one, or to the one whose last
digit is even. -/
inductive Tie where
  | up
  | even
  deriving DecidableEq, Repr

/-- The number `coefficient · 10^exponent`. -/
structure Number where
  coefficient : Nat
  exponent : Int
  deriving DecidableEq, Repr

/-- How many digits a natural number is written with. -/
def digitCount (n : Nat) : Nat :=
  (Nat.toDigits 10 n).length

/-- The decimal without the zeros its coefficient ends with, `steps` of them at most. -/
def Number.dropZeros : Nat → Number → Number
  | 0, d => d
  | steps + 1, d =>
    if d.coefficient ≠ 0 ∧ d.coefficient % 10 = 0 then
      Number.dropZeros steps ⟨d.coefficient / 10, d.exponent + 1⟩
    else d

/-- A positive number with the interval of what rounds to it, all three in units of `2^scale`. The
interval holds its ends iff `closed`. -/
structure Neighbourhood where
  low : Nat
  value : Nat
  high : Nat
  scale : Int
  closed : Bool

/-- The neighbourhood of `mantissa · 2^exponent`. The gap below a power of two is half as wide as
the gap above it, unless the number is among the least of its format. -/
def BinaryFormat.neighbourhood (format : BinaryFormat) (mantissa : Nat) (exponent : Int) :
    Neighbourhood :=
  let narrow := mantissa = twoTo (format.precision - 1) ∧ -(format.depth : Int) < exponent
  { low := 4 * mantissa - if narrow then 1 else 2
    value := 4 * mantissa
    high := 4 * mantissa + 2
    scale := exponent - 2
    closed := mantissa % 2 = 0 }

/-- Whether a value halfway between the coefficients `below` and `below + 1` goes to the latter. -/
def Tie.raises (tie : Tie) (below : Nat) : Bool :=
  match tie with
  | .up => true
  | .even => below % 2 = 1

namespace Neighbourhood

variable (n : Neighbourhood)

/-- The least `k` with `value · 2^scale < 10^k`. -/
def decimalPoint : Int :=
  let num := n.value * twoTo n.scale.toNat
  let den := twoTo (-n.scale).toNat
  -- below one it is the zeros behind the point that count
  if den ≤ num then digitCount (num / den) else 1 - (digitCount ((den - 1) / num) : Int)

/-- Of the two points of the grid `10^g` beside the value, the one that rounds to it; the nearer
one if both do. -/
def onGrid (tie : Tie) (g : Int) : Option Number :=
  let ours := twoTo n.scale.toNat * tenTo (-g).toNat
  let theirs := tenTo g.toNat * twoTo (-n.scale).toNat
  let below := n.value * ours / theirs
  let inside (k : Nat) : Bool :=
    if n.closed then n.low * ours ≤ k * theirs && k * theirs ≤ n.high * ours
    else n.low * ours < k * theirs && k * theirs < n.high * ours
  if inside below then
    -- twice the value against twice the midpoint
    let raised := match compare (2 * (n.value * ours)) ((2 * below + 1) * theirs) with
      | .lt => false
      | .eq => tie.raises below
      | .gt => true
    if raised && inside (below + 1) then some ⟨below + 1, g⟩ else some ⟨below, g⟩
  else if inside (below + 1) then some ⟨below + 1, g⟩
  else none

/-- The first grid from `10^g` downwards, of `count` grids, with a point in the interval. -/
def search (tie : Tie) : Nat → Int → Option Number
  | 0, _ => none
  | count + 1, g =>
    match n.onGrid tie g with
    | some d => some d
    | none => search tie count (g - 1)

/-- The shortest decimal of the value. Seventeen digits suffice for every format in use, so the
search never comes back empty. -/
def shortest (tie : Tie) : Number :=
  ((n.search tie 17 (n.decimalPoint - 1)).getD ⟨0, 0⟩).dropZeros 17

end Neighbourhood

/-- The shortest decimal of `mantissa · 2^exponent`, zero written as a single digit. -/
def BinaryFormat.shortest (format : BinaryFormat) (tie : Tie) (mantissa : Nat) (exponent : Int) :
    Number :=
  if mantissa = 0 then ⟨0, 0⟩ else (format.neighbourhood mantissa exponent).shortest tie

end AdaptiveConsensus.Decimal
