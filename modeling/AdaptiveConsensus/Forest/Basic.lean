import AdaptiveConsensus.Forest.Tree

/-!
# Random forests

A forest (rl/bucket.rs:13, 65-70, 90-93) is a number of regression trees, each grown on a sample of the
training rows drawn with replacement. Its estimate is the mean of the trees' estimates. The samples are
drawn from one generator; every tree draws its columns from a generator of the same seed.
-/

namespace AdaptiveConsensus

open AdaptiveConsensus.Random

/-- The size of a forest: how many trees, and how deep each may grow. -/
structure ForestSize where
  trees : Nat
  depth : Nat
  deriving DecidableEq, Repr

namespace ForestSize

/-- One hundred trees of depth five. -/
def default : ForestSize := ⟨100, 5⟩

end ForestSize

namespace Forest

/-- How often each of `n` rows occurs in a sample of `n` rows drawn with replacement. -/
def sampleWeights (n : Nat) (hn : 0 < n) (rng : Xoshiro) : Array Nat × Xoshiro :=
  let (rows, rng) := positions n hn n rng
  (rows.foldl (fun weights row => weights.modify row.val (· + 1)) (Array.replicate n 0), rng)

/-- `count` trees, each on a sample of its own. -/
def growTrees (g : Growth) (depth n : Nat) (hn : 0 < n) (seed : UInt64) :
    Nat → Xoshiro → List Tree
  | 0, _ => []
  | count + 1, rng =>
    let (weights, rng) := sampleWeights n hn rng
    g.tree depth weights seed :: growTrees g depth n hn seed count rng

/-- The forest of a training set and a seed. -/
def fit (size : ForestSize) (set : TrainingSet) (seed : UInt64) : Except LearnerError (List Tree) := do
  let data ← Columns.ofRows set.x
  if h : 0 < data.rows then
    if size.trees = 0 then return []
    let orders ← data.columns.mapM ascending
    let g : Growth := ⟨data, orders, set.y.toArray, squareRoot data.columns.size⟩
    return growTrees g size.depth data.rows h seed size.trees (Xoshiro.ofSeed seed)
  else .error .noRows

/-- The mean of the trees' estimates for a row of queries. -/
def estimate (trees : List Tree) (queries : Columns) (row : Nat) : Except LearnerError Float := do
  let sum ← trees.foldlM (fun s t => return s + (← t.predict queries row)) 0.0
  return sum / Float.ofNat trees.length

/-- The forest's estimates for the rows of a matrix. -/
def predict (trees : List Tree) (rows : List Features) : Except LearnerError (List Float) := do
  let queries ← Columns.ofRows rows
  (List.range queries.rows).mapM (estimate trees queries)

/-- Random forests of a size as a learner. -/
def learner (size : ForestSize) : Learner where
  Model := List Tree
  fit := fit size
  predict := predict

end Forest

end AdaptiveConsensus
