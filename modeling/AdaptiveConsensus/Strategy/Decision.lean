import AdaptiveConsensus.Bucket
import AdaptiveConsensus.Strategy.Selection

/-!
# Decisions

A strategy answers a state with a protocol and with what the answer cost (models/decision.rs:5-21,
rl/strategy/mod.rs:220-230). The seconds spent are read off a clock that is not part of the strategy: a
decision is handed the readings and keeps those of the work it really did. What it did is reported
beside the answer.
-/

namespace AdaptiveConsensus

/-- Seconds spent on refitting and on scoring. -/
structure Cost where
  training : Float
  inference : Float
  deriving DecidableEq

namespace Cost

/-- No time at all. -/
def free : Cost := ⟨0.0, 0.0⟩

end Cost

/-- A chosen protocol and what choosing it cost. -/
structure Choice where
  protocol : Protocol
  cost : Cost
  deriving DecidableEq

/-- The work done in a call: the sets handed to the learner, the matrices handed to models, and the
scores compared, if any were. -/
structure Work where
  fits : List TrainingSet
  queries : List (List Features)
  scores : Option (List Float)

namespace Work

/-- No work. -/
def none : Work := ⟨[], [], .none⟩

end Work

/-- The outcome of a call that may fail: the state it leaves in either case, the work done, and the
answer. -/
structure Decided (σ : Type) where
  state : σ
  work : Work
  outcome : Except BucketError Choice

namespace Decided

/-- The same outcome with the state wrapped. -/
def map {σ τ : Type} (f : σ → τ) (d : Decided σ) : Decided τ :=
  ⟨f d.state, d.work, d.outcome⟩

end Decided

/-- The protocol at a position of the pool. -/
def candidate (position : Nat) : Protocol :=
  Protocol.pool[position]?.getD .pbft

/-- The readings of a clock that count: refitting if something was fitted, scoring if a model was
asked. -/
def Cost.spent (measured : Cost) (refitted scored : Bool) : Cost :=
  ⟨if refitted then measured.training else 0.0, if scored then measured.inference else 0.0⟩

/-- What scoring candidates gives: the matrices handed to models on the way, and the scores in the
order of the candidates unless a model gave none. -/
structure Scored where
  queries : List (List Features)
  outcome : Except BucketError (List Float)

namespace Scored

/-- No candidates. -/
def nil : Scored := ⟨[], .ok []⟩

/-- One more candidate in front, which no model was asked about. -/
def consUnasked (score : Float) (others : Scored) : Scored :=
  ⟨others.queries, others.outcome.map (score :: ·)⟩

/-- One more candidate in front, with the row that a model was asked about and its estimate. -/
def consAsked (row : Features) (score : Float) (others : Scored) : Scored :=
  ⟨[row] :: others.queries, others.outcome.map (score :: ·)⟩

/-- Scores candidates in turn, each by the model of its bucket or, where the bucket holds no record,
by a stand-in. The first model that gives no estimate ends it. -/
def ofCandidates {L : Learner} (bucket : Protocol → Bucket L) (row : Features)
    (unknown : Protocol → Float) : List Protocol → Scored
  | [] => nil
  | c :: rest =>
    if (bucket c).count = 0 then consUnasked (unknown c) (ofCandidates bucket row unknown rest)
    else match (bucket c).predict row with
      | .error e => ⟨[[row]], .error e⟩
      | .ok score => consAsked row score (ofCandidates bucket row unknown rest)

end Scored

end AdaptiveConsensus
