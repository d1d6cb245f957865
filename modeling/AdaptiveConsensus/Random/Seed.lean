/-!
# Seeding

A generator starts from eight 32-bit words (rl/strategy/mod.rs:78). They come from one 64-bit seed
through a linear congruential generator whose high bits are folded and rotated.
-/

namespace AdaptiveConsensus.Random

/-- A 32-bit word turned left by `n` bits, `0 < n < 32`. -/
def rotateLeft32 (x n : UInt32) : UInt32 :=
  (x <<< n) ||| (x >>> (32 - n))

/-- A 64-bit word turned left by `n` bits, `0 < n < 64`. -/
def rotateLeft64 (x n : UInt64) : UInt64 :=
  (x <<< n) ||| (x >>> (64 - n))

/-- The next state of the seed's own generator. -/
def seedStep (s : UInt64) : UInt64 :=
  s * 6364136223846793005 + 11634580027462260723

/-- The word shown by a state: its high bits folded, then turned right by its five top bits. -/
def seedWord (s : UInt64) : UInt32 :=
  let folded := (((s >>> 18) ^^^ s) >>> 27).toUInt32
  let turn := (s >>> 59).toUInt32
  (folded >>> turn) ||| (folded <<< ((32 - turn) % 32))

/-- The first `count` words of a seed. -/
def seedWords : Nat → UInt64 → List UInt32
  | 0, _ => []
  | count + 1, s => seedWord (seedStep s) :: seedWords count (seedStep s)

end AdaptiveConsensus.Random
