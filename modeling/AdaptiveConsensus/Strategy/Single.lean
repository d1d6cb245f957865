import AdaptiveConsensus.Strategy.Filing
import AdaptiveConsensus.Strategy.Decision

/-!
# The strategy with one model

One bucket for everything (rl/strategy/single.rs:14-111): a feature row is the state followed by a
one-hot encoding of the protocol chosen. The candidates are scored in one batch; the matrix of their
rows is kept from decision to decision, and its state columns are written anew each time. While there
are no records a protocol is drawn from the whole pool.
-/

namespace AdaptiveConsensus

open AdaptiveConsensus.Random

/-- One row per protocol: a number of state columns, not written yet, and the protocol's encoding. -/
def candidateMatrix (stateColumns : Nat) : List Features :=
  Protocol.pool.map fun p => List.replicate stateColumns 0.0 ++ p.oneHot

/-- The matrix with its state columns written. -/
def fillState (columns : Features) (matrix : List Features) : List Features :=
  matrix.map fun row => columns ++ row.drop columns.length

/-- Experience in one bucket. -/
def jointFiling : Filing Unit where
  key _ _ := ()
  encode state _ chosen := state.toList ++ chosen.oneHot
  restore row := row.take StateVector.width

/-- The state of the strategy with one model. -/
structure Single (L : Learner) (γ : Type) where
  buckets : Buckets Unit L
  matrix : List Features
  cap : ReplayCap
  rng : γ

namespace Single

variable {L : Learner} {γ : Type}

/-- The one bucket. -/
def bucket (s : Single L γ) : Bucket L :=
  s.buckets.get ()

/-- The strategy on a history. -/
def build [Dice γ] (cap : ReplayCap) (history : List HistoryRow) (rng : γ) :
    Single L γ × List TrainingSet × Except BucketError Unit :=
  let pass := (jointFiling.seed Buckets.empty history).trainAll (fun b rng => b.train cap rng) rng
  (⟨pass.buckets, candidateMatrix StateVector.width, cap, pass.rng⟩, pass.fits, pass.outcome)

/-- Attributes a throughput. Without a waiting row nothing changes. -/
def recordReward (s : Single L γ) (previous chosen : Protocol) (raw : Float) :
    Single L γ × Except BucketError Unit :=
  match jointFiling.recordReward? s.buckets previous chosen raw with
  | none => (s, .error .nothingPending)
  | some buckets => ({ s with buckets := buckets }, .ok ())

/-- Files a decision. -/
def recordDecision (s : Single L γ) (previous chosen : Protocol) (state : StateVector) : Single L γ :=
  { s with buckets := jointFiling.recordDecision s.buckets previous chosen state }

/-- The state of the decision rewarded last. -/
def previousFeatures (s : Single L γ) (previous chosen : Protocol) : Option Features :=
  jointFiling.latest? s.buckets previous chosen

/-- Chooses the next protocol: refits, scores all candidates at once, and draws one of the best. -/
def decide [Dice γ] (s : Single L γ) (state : StateVector) (measured : Cost) : Decided (Single L γ) :=
  let s := { s with matrix := fillState state.toList s.matrix }
  if s.bucket.count = 0 then
    let (drawn, rng) := pick Protocol.pool s.rng
    ⟨{ s with rng := rng }, Work.none, .ok ⟨drawn.getD .pbft, Cost.free⟩⟩
  else
    let pass := s.buckets.trainOne (fun b rng => b.train s.cap rng) () s.rng
    let s := { s with buckets := pass.buckets, rng := pass.rng }
    match pass.outcome with
    | .error e => ⟨s, ⟨pass.fits, [], none⟩, .error e⟩
    | .ok () =>
      match s.bucket.predictAll s.matrix with
      | .error e => ⟨s, ⟨pass.fits, [s.matrix], none⟩, .error e⟩
      | .ok scores =>
        let (position, rng) := selectBest .close scores s.rng
        ⟨{ s with rng := rng }, ⟨pass.fits, [s.matrix], some scores⟩,
          .ok ⟨candidate position, measured.spent true true⟩⟩

end Single

end AdaptiveConsensus
