import AdaptiveConsensus.Decimal.Binary

/-!
# Numbers of two widths

Reports are sent as 32-bit numbers and worked on as 64-bit ones (comm/wire.rs:48-60, 79-100). A number
goes from one width to the other as the nearest number there. Every 32-bit number is also a 64-bit one,
so that widening keeps the value; narrowing rounds, and what is too large for the 32-bit format becomes
infinite.
-/

namespace AdaptiveConsensus.Decimal

/-- Whether a number has a minus sign. -/
def Decoded.negative : Decoded → Bool
  | .nan => false
  | .infinite negative => negative
  | .finite negative _ _ => negative

namespace BinaryFormat

variable (format : BinaryFormat)

/-- The bit pattern of what is no number. -/
def nanBits : Nat :=
  format.infinityBits + twoTo (format.precision - 2)

/-- The bit pattern of the magnitude nearest to that of a number. -/
def magnitude : Decoded → Nat
  | .nan => format.nanBits
  | .infinite _ => format.infinityBits
  | .finite _ mantissa exponent =>
    format.nearest (mantissa * twoTo exponent.toNat) (twoTo (-exponent).toNat)

end BinaryFormat

/-- The 32-bit number nearest to a 64-bit number. -/
def narrow (x : Float) : Float32 :=
  ofMagnitude32 (decode64 x).negative (binary32.magnitude (decode64 x))

/-- A 32-bit number as a 64-bit number. -/
def widen (x : Float32) : Float :=
  ofMagnitude64 (decode32 x).negative (binary64.magnitude (decode32 x))

end AdaptiveConsensus.Decimal
