import AdaptiveConsensus.Strategy.Single

/-!
# The strategy that looks at the request size

The strategy with one model, reduced to the request size as its only state column, and frozen
(rl/strategy/reduced.rs:16-79): it learns from the history alone, though it fits a new model to all of
it before every decision.
-/

namespace AdaptiveConsensus

open AdaptiveConsensus.Random

/-- Experience in one bucket, with the request size as the only state column. -/
def sizeFiling : Filing Unit where
  key _ _ := ()
  encode state _ chosen := state.requestSize :: chosen.oneHot
  restore row := row.take 1

/-- The state of the reduced strategy. -/
structure Reduced (L : Learner) (γ : Type) where
  buckets : Buckets Unit L
  matrix : List Features
  rng : γ

namespace Reduced

variable {L : Learner} {γ : Type}

/-- The one bucket. -/
def bucket (r : Reduced L γ) : Bucket L :=
  r.buckets.get ()

/-- The strategy on a history. -/
def build [Dice γ] (history : List HistoryRow) (rng : γ) :
    Reduced L γ × List TrainingSet × Except BucketError Unit :=
  let pass := (sizeFiling.seed Buckets.empty history).trainAll (fun b rng => b.trainFull rng) rng
  (⟨pass.buckets, candidateMatrix 1, pass.rng⟩, pass.fits, pass.outcome)

/-- Chooses the next protocol: refits, scores all candidates at once, and draws one of the best. -/
def decide [Dice γ] (r : Reduced L γ) (state : StateVector) (measured : Cost) : Decided (Reduced L γ) :=
  let r := { r with matrix := fillState [state.requestSize] r.matrix }
  if r.bucket.count = 0 then
    let (drawn, rng) := pick Protocol.pool r.rng
    ⟨{ r with rng := rng }, Work.none, .ok ⟨drawn.getD .pbft, Cost.free⟩⟩
  else
    let pass := r.buckets.trainOne (fun b rng => b.trainFull rng) () r.rng
    let r := { r with buckets := pass.buckets, rng := pass.rng }
    match pass.outcome with
    | .error e => ⟨r, ⟨pass.fits, [], none⟩, .error e⟩
    | .ok () =>
      match r.bucket.predictAll r.matrix with
      | .error e => ⟨r, ⟨pass.fits, [r.matrix], none⟩, .error e⟩
      | .ok scores =>
        let (position, rng) := selectBest .close scores r.rng
        ⟨{ r with rng := rng }, ⟨pass.fits, [r.matrix], some scores⟩,
          .ok ⟨candidate position, measured.spent true true⟩⟩

end Reduced

end AdaptiveConsensus
