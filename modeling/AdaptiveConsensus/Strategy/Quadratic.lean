import AdaptiveConsensus.Strategy.Filing
import AdaptiveConsensus.Strategy.Decision

/-!
# The pairwise strategy

One bucket for each pair of the protocol that ran and the protocol chosen
(rl/strategy/quadratic.rs:20-124). A pair without records beats every estimate, so that all pairs are
tried; once such a pair has been chosen it is held, and loses against everything, until its reward
arrives. A rewarded bucket is refitted before the next decision.
-/

namespace AdaptiveConsensus

open AdaptiveConsensus.Random

/-- Experience by pairs: the row is the state. -/
def pairFiling : Filing (Protocol × Protocol) where
  key previous chosen := (previous, chosen)
  encode state _ _ := state.toList
  restore row := row

/-- The state of the pairwise strategy: the buckets, the pairs on hold, and the pair rewarded since
the last decision. -/
structure Quadratic (L : Learner) (γ : Type) where
  buckets : Buckets (Protocol × Protocol) L
  onHold : Table (Protocol × Protocol) Bool
  stale : Option (Protocol × Protocol)
  cap : ReplayCap
  rng : γ

namespace Quadratic

variable {L : Learner} {γ : Type}

/-- The rule by which this strategy files. -/
def filing : Filing (Protocol × Protocol) := pairFiling

/-- The strategy on a history, with a model for every pair that occurs in it. -/
def build [Dice γ] (cap : ReplayCap) (history : List HistoryRow) (rng : γ) :
    Quadratic L γ × List TrainingSet × Except BucketError Unit :=
  let pass := (filing.seed Buckets.empty history).trainAll (fun b rng => b.train cap rng) rng
  (⟨pass.buckets, Table.ofFn fun _ => false, none, cap, pass.rng⟩, pass.fits, pass.outcome)

/-- Attributes a throughput: the pair's oldest waiting row is labelled, the pair is to be refitted
and is no longer held. Without a waiting row nothing changes. -/
def recordReward (q : Quadratic L γ) (previous chosen : Protocol) (raw : Float) :
    Quadratic L γ × Except BucketError Unit :=
  match filing.recordReward? q.buckets previous chosen raw with
  | none => (q, .error .nothingPending)
  | some buckets =>
    ({ q with
        buckets := buckets
        stale := some (previous, chosen)
        onHold := q.onHold.set (previous, chosen) false }, .ok ())

/-- Files a decision. -/
def recordDecision (q : Quadratic L γ) (previous chosen : Protocol) (state : StateVector) :
    Quadratic L γ :=
  { q with buckets := filing.recordDecision q.buckets previous chosen state }

/-- The state of the decision rewarded last for a pair. -/
def previousFeatures (q : Quadratic L γ) (previous chosen : Protocol) : Option Features :=
  filing.latest? q.buckets previous chosen

/-- The score of a candidate without records: an untried pair beats every other, a held one loses. -/
def unknownScore (q : Quadratic L γ) (previous chosen : Protocol) : Float :=
  if q.onHold.get (previous, chosen) then lowest else highest

/-- Scores the candidates. -/
def scoreAll (q : Quadratic L γ) (state : StateVector) (previous : Protocol) : Scored :=
  Scored.ofCandidates (fun c => q.buckets.get (previous, c)) state.toList (q.unknownScore previous)
    Protocol.pool

/-- Refits the stale bucket. -/
def refresh [Dice γ] (q : Quadratic L γ) : Quadratic L γ × List TrainingSet × Except BucketError Unit :=
  let pass := q.buckets.trainStale q.stale q.cap q.rng
  ({ q with buckets := pass.buckets, stale := none, rng := pass.rng }, pass.fits, pass.outcome)

/-- Puts a chosen pair on hold if it has no record. -/
def hold (q : Quadratic L γ) (previous chosen : Protocol) : Quadratic L γ :=
  if (q.buckets.get (filing.key previous chosen)).count = 0 then
    { q with onHold := q.onHold.set (previous, chosen) true }
  else q

/-- Chooses the next protocol: refits, scores every candidate, and draws one of the best. -/
def decide [Dice γ] (q : Quadratic L γ) (state : StateVector) (previous : Protocol) (measured : Cost) :
    Decided (Quadratic L γ) :=
  let (fresh, fits, refreshed) := q.refresh
  match refreshed with
  | .error e => ⟨fresh, ⟨fits, [], none⟩, .error e⟩
  | .ok () =>
    let scored := fresh.scoreAll state previous
    match scored.outcome with
    | .error e => ⟨fresh, ⟨fits, scored.queries, none⟩, .error e⟩
    | .ok scores =>
      let (position, rng) := selectBest .exact scores fresh.rng
      let chosen := candidate position
      let cost := measured.spent q.stale.isSome (!scored.queries.isEmpty)
      ⟨{ fresh with rng := rng }.hold previous chosen, ⟨fits, scored.queries, some scores⟩,
        .ok ⟨chosen, cost⟩⟩

end Quadratic

end AdaptiveConsensus
