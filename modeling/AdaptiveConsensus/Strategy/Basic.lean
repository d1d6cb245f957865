import AdaptiveConsensus.Strategy.Kind
import AdaptiveConsensus.Strategy.StaticOffline
import AdaptiveConsensus.Strategy.PerAction
import AdaptiveConsensus.Strategy.Reduced

/-!
# Strategies

The six strategies behind one interface (rl/strategy/mod.rs:35-160, rl/strategy/rule_based.rs:8-34):
attribute a throughput to an earlier decision, file a decision, show the state of the decision rewarded
last, and decide. Which strategy runs is fixed at the start.
-/

namespace AdaptiveConsensus

open AdaptiveConsensus.Random

/-- Proposal slowness above which the rule prefers a protocol that rotates its leader. -/
def slownessThreshold : Float := 20.0

/-- The fixed rule: slow proposals call for `prime`, all else for `zyzzyva`. -/
def ruleChoice (state : StateVector) : Protocol :=
  if slownessThreshold < state.proposalSlowness then .prime else .zyzzyva

/-- What a learned strategy is set up with. -/
structure StrategySettings where
  cap : ReplayCap
  oneHot : Bool
  deriving DecidableEq, Repr

/-- The active strategy. -/
inductive Strategy (L : Learner) (γ : Type) where
  | quadratic (q : Quadratic L γ)
  | staticOffline (s : StaticOffline L γ)
  | perAction (p : PerAction L γ)
  | single (s : Single L γ)
  | reduced (r : Reduced L γ)
  | ruleBased

/-- A strategy as it was built, the sets handed to the learner on the way, and whether all of them
could be fitted. -/
structure Built (L : Learner) (γ : Type) where
  strategy : Strategy L γ
  fits : List TrainingSet
  outcome : Except BucketError Unit

namespace Strategy

variable {L : Learner} {γ : Type}

/-- The strategy of a kind, seeded with a history. -/
def build [Dice γ] (kind : StrategyKind) (settings : StrategySettings) (history : List HistoryRow)
    (rng : γ) : Built L γ :=
  match kind with
  | .quadratic =>
    let (q, fits, outcome) := Quadratic.build settings.cap history rng
    ⟨quadratic q, fits, outcome⟩
  | .staticOffline =>
    let (s, fits, outcome) := StaticOffline.build history rng
    ⟨staticOffline s, fits, outcome⟩
  | .perAction =>
    let (p, fits, outcome) := PerAction.build settings.cap settings.oneHot history rng
    ⟨perAction p, fits, outcome⟩
  | .single =>
    let (s, fits, outcome) := Single.build settings.cap history rng
    ⟨single s, fits, outcome⟩
  | .reduced =>
    let (r, fits, outcome) := Reduced.build history rng
    ⟨reduced r, fits, outcome⟩
  | .ruleBased => ⟨ruleBased, [], .ok ()⟩

/-- The kind of a strategy. -/
def kind : Strategy L γ → StrategyKind
  | quadratic _ => .quadratic
  | staticOffline _ => .staticOffline
  | perAction _ => .perAction
  | single _ => .single
  | reduced _ => .reduced
  | ruleBased => .ruleBased

/-- Attributes a raw throughput to an earlier decision. The strategies that do not learn online take
no notice. -/
def recordReward (strategy : Strategy L γ) (previous chosen : Protocol) (raw : Float) :
    Strategy L γ × Except BucketError Unit :=
  match strategy with
  | quadratic q =>
    let (q, outcome) := q.recordReward previous chosen raw
    (quadratic q, outcome)
  | perAction p =>
    let (p, outcome) := p.recordReward previous chosen raw
    (perAction p, outcome)
  | single s =>
    let (s, outcome) := s.recordReward previous chosen raw
    (single s, outcome)
  | staticOffline _ | reduced _ | ruleBased => (strategy, .ok ())

/-- Files the state that led to a decision, so that a later reward can label it. -/
def recordDecision (strategy : Strategy L γ) (previous chosen : Protocol) (state : StateVector) :
    Strategy L γ :=
  match strategy with
  | quadratic q => quadratic (q.recordDecision previous chosen state)
  | perAction p => perAction (p.recordDecision previous chosen state)
  | single s => single (s.recordDecision previous chosen state)
  | staticOffline _ | reduced _ | ruleBased => strategy

/-- The state columns of the decision rewarded last, as the training log shows them; the strategies
that keep no states have none. -/
def previousFeatures (strategy : Strategy L γ) (previous chosen : Protocol) : Option Features :=
  match strategy with
  | quadratic q => q.previousFeatures previous chosen
  | staticOffline s => s.previousFeatures previous chosen
  | perAction p => p.previousFeatures previous chosen
  | single s => s.previousFeatures previous chosen
  | reduced _ | ruleBased => none

/-- Chooses the next protocol for a state that was measured while another protocol ran. -/
def decide [Dice γ] (strategy : Strategy L γ) (state : StateVector) (previous : Protocol)
    (measured : Cost) : Decided (Strategy L γ) :=
  match strategy with
  | quadratic q => (q.decide state previous measured).map quadratic
  | staticOffline s => (s.decide state previous measured).map staticOffline
  | perAction p => (p.decide state previous measured).map perAction
  | single s => (s.decide state measured).map single
  | reduced r => (r.decide state measured).map reduced
  | ruleBased => ⟨ruleBased, Work.none, .ok ⟨ruleChoice state, Cost.free⟩⟩

end Strategy

end AdaptiveConsensus
