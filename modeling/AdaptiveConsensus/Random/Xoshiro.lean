import AdaptiveConsensus.Random.Seed
import AdaptiveConsensus.Random.Dice

/-!
# The forest's generator

A forest (rl/bucket.rs:66-69) draws from the small generator `xoshiro256++`: four 64-bit words of state,
one word given per step; a 32-bit word is the upper half of a 64-bit one.
-/

namespace AdaptiveConsensus.Random

/-- The four words of state. -/
structure Xoshiro where
  s0 : UInt64
  s1 : UInt64
  s2 : UInt64
  s3 : UInt64

namespace Xoshiro

/-- The state of a seed: its words paired, the low half first. -/
def ofSeed (seed : UInt64) : Xoshiro :=
  let words := seedWords 8 seed
  let pair (i : Nat) : UInt64 :=
    ((words.getD (2 * i + 1) 0).toUInt64 <<< 32) ||| (words.getD (2 * i) 0).toUInt64
  ⟨pair 0, pair 1, pair 2, pair 3⟩

/-- The next word. -/
def next (g : Xoshiro) : UInt64 × Xoshiro :=
  let word := rotateLeft64 (g.s0 + g.s3) 23 + g.s0
  let s2 := g.s2 ^^^ g.s0
  let s3 := g.s3 ^^^ g.s1
  (word, ⟨g.s0 ^^^ s3, g.s1 ^^^ s2, s2 ^^^ (g.s1 <<< 17), rotateLeft64 s3 45⟩)

instance : WordSource Xoshiro where
  word32 g :=
    let (word, g) := g.next
    ((word >>> 32).toUInt32, g)
  word64 := next

end Xoshiro

end AdaptiveConsensus.Random
