import AdaptiveConsensus.Strategy.Quadratic

/-!
# The frozen pairwise strategy

The pairwise buckets fitted once, on the whole history, and never changed
(rl/strategy/static_offline.rs:15-73): the baseline that the strategies learning online are compared
with. A pair without history has no model and loses against every estimate.
-/

namespace AdaptiveConsensus

open AdaptiveConsensus.Random

/-- The state of the frozen strategy. -/
structure StaticOffline (L : Learner) (γ : Type) where
  buckets : Buckets (Protocol × Protocol) L
  rng : γ

namespace StaticOffline

variable {L : Learner} {γ : Type}

/-- The strategy on a history. -/
def build [Dice γ] (history : List HistoryRow) (rng : γ) :
    StaticOffline L γ × List TrainingSet × Except BucketError Unit :=
  let pass := (pairFiling.seed Buckets.empty history).trainAll (fun b rng => b.trainFull rng) rng
  (⟨pass.buckets, pass.rng⟩, pass.fits, pass.outcome)

/-- The state of the last history row of a pair. -/
def previousFeatures (s : StaticOffline L γ) (previous chosen : Protocol) : Option Features :=
  pairFiling.latest? s.buckets previous chosen

/-- Scores the candidates. -/
def scoreAll (s : StaticOffline L γ) (state : StateVector) (previous : Protocol) : Scored :=
  Scored.ofCandidates (fun c => s.buckets.get (previous, c)) state.toList (fun _ => lowest)
    Protocol.pool

/-- Chooses the next protocol. -/
def decide [Dice γ] (s : StaticOffline L γ) (state : StateVector) (previous : Protocol)
    (measured : Cost) : Decided (StaticOffline L γ) :=
  let scored := s.scoreAll state previous
  match scored.outcome with
  | .error e => ⟨s, ⟨[], scored.queries, none⟩, .error e⟩
  | .ok scores =>
    let (position, rng) := selectBest .exact scores s.rng
    let cost := measured.spent false (!scored.queries.isEmpty)
    ⟨{ s with rng := rng }, ⟨[], scored.queries, some scores⟩, .ok ⟨candidate position, cost⟩⟩

end StaticOffline

end AdaptiveConsensus
