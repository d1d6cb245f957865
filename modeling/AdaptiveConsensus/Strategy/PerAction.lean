import AdaptiveConsensus.Strategy.Filing
import AdaptiveConsensus.Strategy.Decision

/-!
# The strategy with one model per protocol

One bucket for each protocol that can be chosen, whatever ran before (rl/strategy/per_action.rs:14-127).
With the one-hot option the two columns that describe the running protocol give way to an encoding of
the protocol itself. A protocol without records beats every estimate.
-/

namespace AdaptiveConsensus

open AdaptiveConsensus.Random

/-- What a log row shows in place of a column that the feature row does not keep. -/
def droppedFlag : Float := -1.0

/-- The feature row of a state that was measured while a protocol ran. -/
def stateRow (oneHot : Bool) (state : StateVector) (previous : Protocol) : Features :=
  if oneHot then state.withoutFlags ++ previous.oneHot else state.toList

/-- Experience by the protocol chosen. -/
def actionFiling (oneHot : Bool) : Filing Protocol where
  key _ chosen := chosen
  encode state previous _ := stateRow oneHot state previous
  restore row := if oneHot then row.take 4 ++ [droppedFlag, droppedFlag] else row

/-- The state of the strategy with one model per protocol. -/
structure PerAction (L : Learner) (γ : Type) where
  buckets : Buckets Protocol L
  oneHot : Bool
  stale : Option Protocol
  cap : ReplayCap
  rng : γ

namespace PerAction

variable {L : Learner} {γ : Type}

/-- The rule by which this strategy files. -/
def filing (p : PerAction L γ) : Filing Protocol :=
  actionFiling p.oneHot

/-- The strategy on a history. -/
def build [Dice γ] (cap : ReplayCap) (oneHot : Bool) (history : List HistoryRow) (rng : γ) :
    PerAction L γ × List TrainingSet × Except BucketError Unit :=
  let pass := ((actionFiling oneHot).seed Buckets.empty history).trainAll
    (fun b rng => b.train cap rng) rng
  (⟨pass.buckets, oneHot, none, cap, pass.rng⟩, pass.fits, pass.outcome)

/-- Attributes a throughput. Without a waiting row nothing changes. -/
def recordReward (p : PerAction L γ) (previous chosen : Protocol) (raw : Float) :
    PerAction L γ × Except BucketError Unit :=
  match p.filing.recordReward? p.buckets previous chosen raw with
  | none => (p, .error .nothingPending)
  | some buckets => ({ p with buckets := buckets, stale := some chosen }, .ok ())

/-- Files a decision. -/
def recordDecision (p : PerAction L γ) (previous chosen : Protocol) (state : StateVector) :
    PerAction L γ :=
  { p with buckets := p.filing.recordDecision p.buckets previous chosen state }

/-- The state of the decision rewarded last for a protocol, with stand-ins for dropped columns. -/
def previousFeatures (p : PerAction L γ) (previous chosen : Protocol) : Option Features :=
  p.filing.latest? p.buckets previous chosen

/-- What one sweep over the candidates leaves: the buckets and the source of randomness after it,
the sets handed to the learner, and the scores. -/
structure Sweep (L : Learner) (γ : Type) where
  buckets : Buckets Protocol L
  rng : γ
  fits : List TrainingSet
  scored : Scored

/-- Scores candidates in turn. The stale bucket is refitted when its turn comes, so that a model that
gives no estimate before then leaves it as it is. -/
def sweep [Dice γ] (stale : Option Protocol) (cap : ReplayCap) (row : Features) :
    List Protocol → Buckets Protocol L → γ → Sweep L γ
  | [], buckets, rng => ⟨buckets, rng, [], Scored.nil⟩
  | c :: rest, buckets, rng =>
    if (buckets.get c).count = 0 then
      let others := sweep stale cap row rest buckets rng
      { others with scored := others.scored.consUnasked highest }
    else
      let pass := buckets.trainStale (stale.filter (· = c)) cap rng
      match pass.outcome with
      | .error e => ⟨pass.buckets, pass.rng, pass.fits, ⟨[], .error e⟩⟩
      | .ok () =>
        match (pass.buckets.get c).predict row with
        | .error e => ⟨pass.buckets, pass.rng, pass.fits, ⟨[[row]], .error e⟩⟩
        | .ok score =>
          let others := sweep stale cap row rest pass.buckets pass.rng
          { others with
            fits := pass.fits ++ others.fits
            scored := others.scored.consAsked row score }

/-- Chooses the next protocol: refits and scores in one sweep, and draws one of the best. -/
def decide [Dice γ] (p : PerAction L γ) (state : StateVector) (previous : Protocol) (measured : Cost) :
    Decided (PerAction L γ) :=
  let row := stateRow p.oneHot state previous
  let s := sweep p.stale p.cap row Protocol.pool p.buckets p.rng
  let fresh := { p with buckets := s.buckets, stale := none, rng := s.rng }
  match s.scored.outcome with
  | .error e => ⟨fresh, ⟨s.fits, s.scored.queries, none⟩, .error e⟩
  | .ok scores =>
    let (position, rng) := selectBest .exact scores fresh.rng
    let cost := measured.spent p.stale.isSome (!s.scored.queries.isEmpty)
    ⟨{ fresh with rng := rng }, ⟨s.fits, s.scored.queries, some scores⟩,
      .ok ⟨candidate position, cost⟩⟩

end PerAction

end AdaptiveConsensus
