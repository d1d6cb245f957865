import AdaptiveConsensus.Directive
import AdaptiveConsensus.Strategy.Basic
import AdaptiveConsensus.TrainingLog.Basic

/-!
# The episode controller

Each report is answered by one directive (rl/orchestrator.rs:12-118, models/decision.rs:23-30). The
throughput of a decision can be measured only once the system has switched to it: the next report still
covers the switch, the one after it tells the throughput. So a decision waits for the second report
after it, and at most two decisions wait.

During the warm-up the controller only says to keep the running protocol, and no decision is made.
-/

namespace AdaptiveConsensus

open AdaptiveConsensus.Random

/-- A decision that waits for its throughput. -/
structure PendingDecision where
  previous : Protocol
  chosen : Protocol
  cost : Cost
  deriving DecidableEq

/-- Why a report could not be handled. -/
inductive EpisodeError where
  | reward (previous chosen : Protocol) (cause : BucketError)
  | log (cause : LogError)
  | decision (cause : BucketError)
  deriving DecidableEq, Repr

instance : Cause EpisodeError where
  chain
    | .reward previous chosen cause =>
      [s!"Failed to record reward for {previous.name} -> {chosen.name}", cause.message]
    | .log cause => Cause.chain cause
    | .decision cause => [cause.message]

/-- The state of a run. -/
structure Controller (L : Learner) (γ : Type) where
  strategy : Strategy L γ
  /-- The decisions that wait for their throughput, oldest first. -/
  pending : List PendingDecision
  log : TrainingLog
  warmup : Nat
  /-- How many reports have been answered. -/
  episode : Nat

/-- The outcome of a report: the state it leaves in either case, the work done, and the answer. -/
structure Handled (L : Learner) (γ : Type) where
  controller : Controller L γ
  work : Work
  outcome : Except EpisodeError Directive

namespace Controller

variable {L : Learner} {γ : Type}

/-- The controller at the start of a run. -/
def start (strategy : Strategy L γ) (log : TrainingLog) (warmup : Nat) : Controller L γ :=
  ⟨strategy, [], log, warmup, 0⟩

/-- Whether the next report is answered without a decision: all but the last episode of the warm-up
are. -/
def inWarmup (c : Controller L γ) : Bool :=
  c.episode + 1 < c.warmup

/-- The row of a resolved decision. -/
def rowOf (d : PendingDecision) (features : Features) (throughput : Float) : TrainingRow :=
  ⟨features, d.previous, d.chosen, throughput, d.cost⟩

/-- Writes the row of a resolved decision, if the strategy keeps its features. -/
def logRow (c : Controller L γ) (d : PendingDecision) (throughput : Float) :
    Controller L γ × Except EpisodeError Unit :=
  match c.strategy.previousFeatures d.previous d.chosen with
  | none => (c, .ok ())
  | some features =>
    match c.log.writeRow (rowOf d features throughput) with
    | (log, .ok ()) => ({ c with log := log }, .ok ())
    | (log, .error e) => ({ c with log := log }, .error (.log e))

/-- Credits a resolved decision with a throughput: the strategy learns it, then the log shows it. -/
def credit (c : Controller L γ) (d : PendingDecision) (throughput : Float) :
    Controller L γ × Except EpisodeError Unit :=
  match c.strategy.recordReward d.previous d.chosen throughput with
  | (strategy, .error e) => ({ c with strategy := strategy }, .error (.reward d.previous d.chosen e))
  | (strategy, .ok ()) => logRow { c with strategy := strategy } d throughput

/-- Resolves the oldest decision if two are waiting. -/
def resolve (c : Controller L γ) (throughput : Float) : Controller L γ × Except EpisodeError Unit :=
  match c.pending with
  | d :: next :: rest => credit { c with pending := next :: rest } d throughput
  | _ => (c, .ok ())

/-- Makes a decision and lets it wait for its throughput. -/
def choose [Dice γ] (c : Controller L γ) (r : StateReport) (measured : Cost) : Handled L γ :=
  let d := c.strategy.decide r.state r.current measured
  match d.outcome with
  | .error e => ⟨{ c with strategy := d.state }, d.work, .error (.decision e)⟩
  | .ok choice =>
    let c := { c with
      strategy := d.state.recordDecision r.current choice.protocol r.state
      pending := c.pending ++ [⟨r.current, choice.protocol, choice.cost⟩]
      episode := c.episode + 1 }
    ⟨c, d.work, .ok (.switch choice.protocol)⟩

/-- Answers a report whose throughput has been credited. -/
def answer [Dice γ] (c : Controller L γ) (r : StateReport) (measured : Cost) : Handled L γ :=
  if c.inWarmup then ⟨{ c with episode := c.episode + 1 }, Work.none, .ok .keep⟩
  else c.choose r measured

/-- Handles one report: the decision it resolves is credited first, then the report is answered. -/
def handleReport [Dice γ] (c : Controller L γ) (r : StateReport) (measured : Cost) : Handled L γ :=
  match c.resolve r.reward with
  | (c, .error e) => ⟨c, Work.none, .error e⟩
  | (c, .ok ()) => c.answer r measured

end Controller

end AdaptiveConsensus
