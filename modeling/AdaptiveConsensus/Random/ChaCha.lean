import AdaptiveConsensus.Random.Seed
import AdaptiveConsensus.Random.Dice

/-!
# The strategies' generator

The strategies draw from the ChaCha stream cipher with twelve rounds (rl/strategy/mod.rs:78): the key is
the expanded seed, the nonce is zero, and the stream is the sequence of 32-bit words of the blocks
numbered from zero. A 64-bit word is two words of the stream, the low half first.
-/

namespace AdaptiveConsensus.Random

/-- The sixteen words that a block is made from. -/
abbrev Block := Vector UInt32 16

namespace Block

/-- Adds one word to another and turns the word below it, as often as the quarter round does. -/
def quarter (s : Block) (a b c d : Fin 16) : Block :=
  let s := s.set a (s[a] + s[b])
  let s := s.set d (rotateLeft32 (s[d] ^^^ s[a]) 16)
  let s := s.set c (s[c] + s[d])
  let s := s.set b (rotateLeft32 (s[b] ^^^ s[c]) 12)
  let s := s.set a (s[a] + s[b])
  let s := s.set d (rotateLeft32 (s[d] ^^^ s[a]) 8)
  let s := s.set c (s[c] + s[d])
  s.set b (rotateLeft32 (s[b] ^^^ s[c]) 7)

/-- A round over the columns and a round over the diagonals. -/
def doubleRound (s : Block) : Block :=
  let s := s.quarter 0 4 8 12
  let s := s.quarter 1 5 9 13
  let s := s.quarter 2 6 10 14
  let s := s.quarter 3 7 11 15
  let s := s.quarter 0 5 10 15
  let s := s.quarter 1 6 11 12
  let s := s.quarter 2 7 8 13
  s.quarter 3 4 9 14

/-- A number of double rounds. -/
def doubleRounds : Nat → Block → Block
  | 0, s => s
  | n + 1, s => doubleRounds n s.doubleRound

/-- The words of the stream that a block gives: the block after twelve rounds, added to itself. -/
def words (s : Block) : List UInt32 :=
  (Vector.zipWith (· + ·) (s.doubleRounds 6) s).toList

end Block

/-- The stream's state: the key, the number of the next block, and the words of the last block that
have not been used. -/
structure ChaCha where
  key : List UInt32
  counter : UInt64
  ahead : List UInt32

namespace ChaCha

/-- The stream of a seed. -/
def ofSeed (seed : UInt64) : ChaCha :=
  ⟨seedWords 8 seed, 0, []⟩

/-- The next block of the stream before its rounds. -/
def block (g : ChaCha) : Block :=
  Vector.ofFn fun i =>
    if i.val = 0 then 0x61707865
    else if i.val = 1 then 0x3320646e
    else if i.val = 2 then 0x79622d32
    else if i.val = 3 then 0x6b206574
    else if i.val < 12 then g.key.getD (i.val - 4) 0
    else if i.val = 12 then g.counter.toUInt32
    else if i.val = 13 then (g.counter >>> 32).toUInt32
    else 0

/-- The next word of the stream. -/
def next (g : ChaCha) : UInt32 × ChaCha :=
  match g.ahead with
  | word :: rest => (word, { g with ahead := rest })
  | [] =>
    let words := g.block.words
    (words.headD 0, { g with counter := g.counter + 1, ahead := words.tail })

instance : WordSource ChaCha where
  word32 := next
  word64 g :=
    let (low, g) := g.next
    let (high, g) := g.next
    ((high.toUInt64 <<< 32) ||| low.toUInt64, g)

end ChaCha

end AdaptiveConsensus.Random
