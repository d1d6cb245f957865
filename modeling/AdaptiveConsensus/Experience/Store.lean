import AdaptiveConsensus.Experience.ReplayCap
import AdaptiveConsensus.Learner
import AdaptiveConsensus.Random.Dice

/-!
# Experience stores

A store is the history of one bucket (rl/experience.rs:50-132). Feature rows are kept in one list: first
those whose reward is known, in the order of the rewards, then the rows of decisions that still wait for
theirs. A new reward labels the oldest waiting row, so that the `i`-th reward always belongs to the
`i`-th row.

* `labelled`, `pending`: the two parts of a store as a list of records and a queue.
* `sampleAt`: a resample of the recent records at given draws; the draws' range is in their type.
-/

namespace AdaptiveConsensus

open AdaptiveConsensus.Random

/-- The ordered history of one bucket. -/
structure Store where
  features : List Features
  rewards : List Float
  rewards_le : rewards.length ≤ features.length

namespace Store

/-- The store without records. -/
def empty : Store := ⟨[], [], Nat.le_refl 0⟩

/-- The number of labelled records. -/
def count (s : Store) : Nat :=
  s.rewards.length

/-- The number of rows that wait for a reward. -/
def pendingCount (s : Store) : Nat :=
  s.features.length - s.rewards.length

/-- The labelled records, oldest first. -/
def labelled (s : Store) : List (Features × Float) :=
  s.features.zip s.rewards

/-- The rows that wait for a reward, oldest first. -/
def pending (s : Store) : List Features :=
  s.features.drop s.count

/-- Adds a labelled record, ahead of the rows that wait. -/
def append (s : Store) (x : Features) (y : Float) : Store where
  features := s.features.take s.count ++ x :: s.features.drop s.count
  rewards := s.rewards ++ [y]
  rewards_le := by
    have := s.rewards_le
    simp [count]
    omega

/-- Adds a row whose reward is not known yet. -/
def pushPending (s : Store) (x : Features) : Store where
  features := s.features ++ [x]
  rewards := s.rewards
  rewards_le := by have := s.rewards_le; simp; omega

/-- Labels the oldest waiting row; there may be none. -/
def assignReward? (s : Store) (y : Float) : Option Store :=
  if h : s.rewards.length < s.features.length then
    some ⟨s.features, s.rewards ++ [y], by rw [List.length_append, List.length_singleton]; omega⟩
  else none

/-- The row labelled last. -/
def latest? (s : Store) : Option Features :=
  if s.count = 0 then none else s.features[s.count - 1]?

/-- Where the recent records that a cap allows begin. -/
def windowStart (s : Store) (cap : ReplayCap) : Nat :=
  s.count - cap.window s.count

theorem windowStart_add_lt (s : Store) (cap : ReplayCap) (k : Fin (cap.window s.count)) :
    s.windowStart cap + k.val < s.count := by
  have := cap.window_le s.count
  have := k.isLt
  simp only [windowStart]
  omega

/-- The recent records at the drawn positions, in the order of the draws. -/
def sampleAt (s : Store) (cap : ReplayCap) (draws : List (Fin (cap.window s.count))) : TrainingSet where
  x := draws.map fun k =>
    s.features.get ⟨s.windowStart cap + k.val,
      Nat.lt_of_lt_of_le (s.windowStart_add_lt cap k) s.rewards_le⟩
  y := draws.map fun k => s.rewards.get ⟨s.windowStart cap + k.val, s.windowStart_add_lt cap k⟩

/-- A resample with replacement of the recent records, as many as there are. -/
def sample {γ : Type} [Dice γ] (s : Store) (cap : ReplayCap) (rng : γ) : TrainingSet × γ :=
  if h : 0 < cap.window s.count then
    let (draws, rng) := positions (cap.window s.count) h (cap.window s.count) rng
    (s.sampleAt cap draws, rng)
  else (⟨[], []⟩, rng)

/-- Every labelled record in order. -/
def fullHistory (s : Store) : TrainingSet where
  x := s.features.take s.count
  y := s.rewards

end Store

end AdaptiveConsensus
