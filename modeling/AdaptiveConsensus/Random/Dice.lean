import AdaptiveConsensus.Power

/-!
# Uniform draws

What the strategies and the forest ask of a source of randomness is an interface, `Dice`
(rl/experience.rs:109-122, rl/strategy/mod.rs:209, rl/bucket.rs:46): a draw below a bound, once for
choices among a handful of things and once for positions in a history, and a fresh seed. A draw's range
is part of its type. Every generator of 32-bit and 64-bit words (`WordSource`) is such a source: a word
is scaled to the bound, and words from the ragged end of the range are rejected, so that all results are
equally likely.
-/

namespace AdaptiveConsensus.Random

/-- A source of uniform draws with state `γ`. -/
class Dice (γ : Type) where
  /-- A choice among `n` things. -/
  choice : (n : Nat) → 0 < n → γ → Fin n × γ
  /-- A position in a history of `n` records. -/
  position : (n : Nat) → 0 < n → γ → Fin n × γ
  /-- The seed of another generator. -/
  seed : γ → UInt64 × γ

/-- A generator of words with state `γ`. -/
class WordSource (γ : Type) where
  word32 : γ → UInt32 × γ
  word64 : γ → UInt64 × γ

/-- A word of `bits` bits scaled to the range below `n`. -/
def scale (bits n word : Nat) : Nat :=
  word * n / twoTo bits

theorem scale_lt {bits n word : Nat} (hn : 0 < n) (hw : word < twoTo bits) : scale bits n word < n := by
  rw [scale, Nat.div_lt_iff_lt_mul (twoTo_pos bits), Nat.mul_comm n]
  exact Nat.mul_lt_mul_of_pos_right hw hn

/-- Whether a word is taken: its product with `n` falls into the part of the range that all results
share evenly. -/
def accepts (bits n word : Nat) : Bool :=
  word * n % twoTo bits ≤ n * twoTo (bits - 1 - n.log2) - 1

/-- How many words are rejected in a row at most. Each is taken with probability one half or more,
so that a longer run does not occur in practice; the bound makes the draw a total function. -/
def patience : Nat := 256

/-- A uniform draw below `n` from words of `bits` bits. -/
def draw {γ : Type} (bits n : Nat) (hn : 0 < n) (next : γ → Fin (twoTo bits) × γ) :
    Nat → γ → Fin n × γ
  | 0, g =>
    let (word, g) := next g
    (⟨scale bits n word, scale_lt hn word.isLt⟩, g)
  | tries + 1, g =>
    let (word, g') := next g
    if accepts bits n word then (⟨scale bits n word, scale_lt hn word.isLt⟩, g')
    else draw bits n hn next tries g'

instance (γ : Type) [WordSource γ] : Dice γ where
  choice n hn := draw 32 n hn (fun g =>
    let (word, g) := WordSource.word32 g
    (⟨word.toNat, word.toNat_lt⟩, g)) patience
  position n hn := draw 64 n hn (fun g =>
    let (word, g) := WordSource.word64 g
    (⟨word.toNat, word.toNat_lt⟩, g)) patience
  seed := WordSource.word64

/-- `count` positions in a history of `n` records. -/
def positions {γ : Type} [Dice γ] (n : Nat) (hn : 0 < n) : Nat → γ → List (Fin n) × γ
  | 0, g => ([], g)
  | count + 1, g =>
    let (i, g) := Dice.position n hn g
    let (rest, g) := positions n hn count g
    (i :: rest, g)

theorem length_positions {γ : Type} [Dice γ] (n : Nat) (hn : 0 < n) (count : Nat) (g : γ) :
    (positions n hn count g).1.length = count := by
  induction count generalizing g with
  | zero => rfl
  | succ count ih => simp [positions, ih]

/-- One of the members of a list, each equally likely; an empty list draws nothing. -/
def pick {γ α : Type} [Dice γ] (xs : List α) (g : γ) : Option α × γ :=
  if h : 0 < xs.length then
    let (i, g) := Dice.choice xs.length h g
    (some (xs.get i), g)
  else (none, g)

/-- Exchanges the entry at `i` with one drawn from those up to it, for `i` from the given position
down to the second. -/
def shuffleFrom {γ α : Type} [Dice γ] : Nat → Array α → γ → Array α × γ
  | 0, xs, g => (xs, g)
  | i + 1, xs, g =>
    let (j, g) := Dice.choice (i + 2) (Nat.succ_pos _) g
    shuffleFrom i (xs.swapIfInBounds (i + 1) j.val) g

/-- The entries in an order drawn uniformly. -/
def shuffle {γ α : Type} [Dice γ] (xs : Array α) (g : γ) : Array α × γ :=
  shuffleFrom (xs.size - 1) xs g

end AdaptiveConsensus.Random
