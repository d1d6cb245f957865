import AdaptiveConsensus.Power

/-!
# Binary floating-point formats

The features, throughputs and scores of the agent (models/state.rs:16) are floating-point numbers. A
finite floating-point number is `± m · 2^q` with a whole mantissa `m`. Numbers of one sign are laid out
so that the bit pattern, read as a natural number, counts them from zero upwards: this makes rounding to
the nearest number a matter of one rounded division (`BinaryFormat.nearest`).

* `roundDiv`: the whole number nearest to a quotient, a tie going to the even one.
* `BinaryFormat.decode`: what a bit pattern stands for.
* `BinaryFormat.nearest`: the bit pattern of the number nearest to a quotient.
-/

namespace AdaptiveConsensus.Decimal

/-- The whole number nearest to `num / den`; of two equally near ones the even one. -/
def roundDiv (num den : Nat) : Nat :=
  let q := num / den
  let r := num % den
  if 2 * r < den then q else if den < 2 * r then q + 1 else q + q % 2

/-- A binary format: its numbers have `precision` significant bits, the least positive one is
`2^-depth`, and the exponent field takes `exponentBits` bits. -/
structure BinaryFormat where
  precision : Nat
  depth : Nat
  exponentBits : Nat

/-- The 64-bit format. -/
def binary64 : BinaryFormat := ⟨53, 1074, 11⟩

/-- The 32-bit format. -/
def binary32 : BinaryFormat := ⟨24, 149, 8⟩

/-- What a floating-point number is: not a number, an infinity, or `± mantissa · 2^exponent`. -/
inductive Decoded where
  | nan
  | infinite (negative : Bool)
  | finite (negative : Bool) (mantissa : Nat) (exponent : Int)

namespace BinaryFormat

variable (format : BinaryFormat)

/-- The bit pattern of positive infinity; the patterns below it are the finite numbers. -/
def infinityBits : Nat :=
  (twoTo format.exponentBits - 1) * twoTo (format.precision - 1)

/-- The bit pattern that sets the sign alone. -/
def signBit : Nat :=
  twoTo (format.exponentBits + format.precision - 1)

/-- What a bit pattern stands for. -/
def decode (bits : Nat) : Decoded :=
  let negative := decide (format.signBit ≤ bits)
  let magnitude := bits % format.signBit
  let unit := twoTo (format.precision - 1)
  let field := magnitude / unit
  let fraction := magnitude % unit
  if format.infinityBits < magnitude then .nan
  else if magnitude = format.infinityBits then .infinite negative
  else if field = 0 then .finite negative fraction (-(format.depth : Int))
  else .finite negative (fraction + unit) ((field : Int) - 1 - format.depth)

/-- The exponent of the last bit kept when `num / den` is rounded: the leading bit of a quotient
in `[2^e, 2^(e+1))` leaves `precision - 1` bits below it, but none below `2^-depth`. -/
def lastBit (num den : Nat) : Int :=
  let guess : Int := (num.log2 : Int) - den.log2
  let reaches := if 0 ≤ guess then den * twoTo guess.toNat ≤ num else den ≤ num * twoTo (-guess).toNat
  let leading := if reaches then guess else guess - 1
  max (leading - (format.precision - 1 : Nat)) (-(format.depth : Int))

/-- The bit pattern of the number nearest to `num / den`, a tie going to the even mantissa, and
infinity for what lies beyond the largest number. -/
def nearest (num den : Nat) : Nat :=
  if num = 0 then 0
  else
    let last := format.lastBit num den
    let mantissa :=
      if 0 ≤ last then roundDiv num (den * twoTo last.toNat) else roundDiv (num * twoTo (-last).toNat) den
    min ((last + format.depth).toNat * twoTo (format.precision - 1) + mantissa) format.infinityBits

end BinaryFormat

/-- What a 64-bit number stands for. -/
def decode64 (x : Float) : Decoded :=
  binary64.decode x.toBits.toNat

/-- What a 32-bit number stands for. -/
def decode32 (x : Float32) : Decoded :=
  binary32.decode x.toBits.toNat

/-- The 64-bit number of a sign and the bit pattern of a magnitude. -/
def ofMagnitude64 (negative : Bool) (magnitude : Nat) : Float :=
  Float.ofBits (UInt64.ofNat (if negative then magnitude + binary64.signBit else magnitude))

/-- The 32-bit number of a sign and the bit pattern of a magnitude. -/
def ofMagnitude32 (negative : Bool) (magnitude : Nat) : Float32 :=
  Float32.ofBits (UInt32.ofNat (if negative then magnitude + binary32.signBit else magnitude))

end AdaptiveConsensus.Decimal
