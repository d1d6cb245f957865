/-!
# Reward shaping

A raw throughput becomes a training target (rl/reward.rs:3-17). Below the healthy throughput it is
squared relative to it, which flattens noise among poor outcomes; from there on it is taken as it is, so
that the two branches meet. The rule is stated over any numbers with an order, a product and a quotient,
and used at 64-bit numbers.
-/

namespace AdaptiveConsensus

/-- The shaping rule, with a threshold of one thousand. -/
def shape {α : Type} [LT α] [DecidableLT α] [Div α] [Mul α] [OfNat α 1000] (raw : α) : α :=
  if raw < 1000 then raw / 1000 * (raw / 1000) * 1000 else raw

/-- The training target of a raw throughput. What is no number stays none. -/
def shapeReward (raw : Float) : Float :=
  shape raw

end AdaptiveConsensus
