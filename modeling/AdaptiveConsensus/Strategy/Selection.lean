import AdaptiveConsensus.Random.Dice

/-!
# Selecting the best candidate

Of several scores the largest wins (rl/strategy/mod.rs:178-218); a score that is no number never does.
Scores that tie with the largest are drawn from uniformly. The bucketed strategies let only equal scores
tie, the strategies with a single model also scores that differ by no more than rounding noise.
-/

namespace AdaptiveConsensus

open AdaptiveConsensus.Random

/-- The score that every other one beats. -/
def lowest : Float := -1.0 / 0.0

/-- The score that beats every other one. -/
def highest : Float := 1.0 / 0.0

/-- Which scores count as equal. -/
inductive TieBreak where
  | exact
  | close
  deriving DecidableEq, Repr

namespace TieBreak

/-- Whether a score is near a reference value: within one part in a hundred thousand of it, and a
hundred-millionth on top. What is not finite is near nothing but itself. -/
def isClose (a b : Float) : Bool :=
  if a.isFinite && b.isFinite then (a - b).abs ≤ 1e-8 + 1e-5 * b.abs else a == b

/-- Whether a score ties with the best one. -/
def ties : TieBreak → Float → Float → Bool
  | .exact, a, b => a == b
  | .close, a, b => isClose a b

end TieBreak

/-- The larger of two scores, passing over what is no number. -/
def larger (a b : Float) : Float :=
  if b.isNaN then a else if a.isNaN then b else if a < b then b else a

/-- The largest score. -/
def bestScore (scores : List Float) : Float :=
  scores.foldl larger lowest

/-- The positions of the scores that tie with the largest. -/
def tiedPositions (tieBreak : TieBreak) (scores : List Float) : List Nat :=
  (scores.zipIdx.filter fun s => tieBreak.ties s.1 (bestScore scores)).map Prod.snd

/-- The position of a best score, drawn uniformly from those that tie. Where no score is a number it
is the first position, and nothing is drawn. -/
def selectBest {γ : Type} [Dice γ] (tieBreak : TieBreak) (scores : List Float) (rng : γ) : Nat × γ :=
  let (drawn, rng) := pick (tiedPositions tieBreak scores) rng
  (drawn.getD 0, rng)

end AdaptiveConsensus
