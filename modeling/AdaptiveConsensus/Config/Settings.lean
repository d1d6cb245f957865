import AdaptiveConsensus.Cause
import AdaptiveConsensus.Config.AgentOptions
import AdaptiveConsensus.Config.Environment
import AdaptiveConsensus.Experience.ReplayCap
import AdaptiveConsensus.Forest.Basic
import AdaptiveConsensus.Notice
import AdaptiveConsensus.Power
import AdaptiveConsensus.Strategy.Kind

/-!
# Settings

Everything the agent needs to start (main.rs:66-89, utils/agent_config.rs:133-244): what its command
line says, and the seed, the size of the forests and the host of the replicated system, which the
environment may say. A variable that cannot be read counts as not set.

* `Settings.read`: from a command line and an environment.
* `Settings.notices`: what the agent tells its operator about them.
-/

namespace AdaptiveConsensus

open Decimal

/-- Why there are no settings. -/
inductive SettingsError where
  | usage (cause : UsageError)
  | choice (cause : ChoiceError)
  deriving DecidableEq, Repr

/-- The agent's settings. -/
structure Settings where
  unit : UInt32
  port : UInt16
  episodes : Nat
  estimator : EstimatorKind
  strategy : StrategyKind
  /-- The length of the warm-up, all but the last of whose episodes keep the running protocol. -/
  discard : Nat
  replayCap : ReplayCap
  oneHot : Bool
  snapshotDirectory : String
  dataDirectory : String
  entityHost : String
  seed : UInt64
  forest : ForestSize

namespace Environment

/-- A positive number of at most `largest` that a variable holds, or else the fallback. -/
def positive (env : Environment) (name : String) (largest fallback : Nat) : Nat :=
  match (env.get? name).bind fun text => readNat largest text.toList with
  | some n => if 0 < n then n else fallback
  | none => fallback

/-- The seed of the agent's random choices. -/
def seed (env : Environment) : UInt64 :=
  ((env.get? "AGENT_SEED").bind fun text => readWord64 text.toList).getD 0

/-- The size of the forests. -/
def forestSize (env : Environment) : ForestSize :=
  ⟨env.positive "FOREST_TREES" largestWord64 ForestSize.default.trees,
    env.positive "FOREST_MAX_DEPTH" (twoTo 16 - 1) ForestSize.default.depth⟩

/-- The host of the replicated system. -/
def entityHost (env : Environment) : String :=
  (env.get? "ENTITY_HOST").getD "127.0.0.1"

end Environment

namespace Settings

/-- A port that lies above the base port, or the last port if there is none so far above. -/
def portAbove (base : UInt16) (offset : Nat) : UInt16 :=
  UInt16.ofNat (min (base.toNat + offset) (twoTo 16 - 1))

/-- The port on which the agent takes reports. -/
def agentPort (s : Settings) : UInt16 :=
  portAbove s.port 20

/-- The port on which the replicated system takes decisions. -/
def entityPort (s : Settings) : UInt16 :=
  portAbove s.port 10

/-- The settings of a command line that was read. The estimator is looked at before the strategy. -/
def resolve (o : AgentOptions) (unit : UInt32) (port : UInt16) (env : Environment) :
    Except ChoiceError Settings := do
  let estimator ← EstimatorKind.read o.model
  let estimator ← estimator.ensureSupported
  let strategy ← StrategyKind.read o.strategy
  return {
    unit := unit
    port := port
    episodes := o.episodes
    estimator := estimator
    strategy := strategy
    discard := o.discard
    replayCap := ReplayCap.ofLimit o.replayLimit
    oneHot := o.oneHot
    snapshotDirectory := o.snapshotDirectory
    dataDirectory := o.dataDirectory
    entityHost := env.entityHost
    seed := env.seed
    forest := env.forestSize }

/-- The settings of a command line and an environment. -/
def read (words : List String) (env : Environment) : Except SettingsError Settings :=
  match AgentOptions.read words with
  | .error e => .error (.usage e)
  | .ok (o, unit, port) =>
    match resolve o unit port env with
    | .error e => .error (.choice e)
    | .ok s => .ok s

/-! ## Notices -/

/-- The notice on the replay cap. -/
def replayNotice (s : Settings) : Notice :=
  match s.replayCap.limit with
  | some limit => .info s!"   Replay buffer capped at {limit} records"
  | none => .info "   Replay buffer unlimited"

/-- The notice on the encoding of the running protocol, which only one strategy heeds. -/
def oneHotNotices (s : Settings) : List Notice :=
  if !s.oneHot then []
  else if s.strategy = .perAction then [.info "   Per-action one-hot encoding ENABLED"]
  else [.warn s!"   --multi-onehot has no effect on the {s.strategy.name} strategy"]

/-- What the operator is told about the settings. -/
def notices (s : Settings) : List Notice :=
  [.info s!"🤖 Learning agent for unit {s.unit.toNat}",
   .info s!"   Strategy: {s.strategy.name} ({s.estimator.name})",
   .info s!"   Episodes: {s.episodes}, warm-up discard: {s.discard}",
   s.replayNotice] ++ s.oneHotNotices ++
  [.info s!"   Forest: {s.forest.trees} trees, max depth {s.forest.depth}, seed {s.seed.toNat}",
   .info s!"   Snapshots: {s.snapshotDirectory}, training log dir: {s.dataDirectory}",
   .info s!"   Listening on port {s.agentPort.toNat}, entity at {s.entityHost}:{s.entityPort.toNat}"]

end Settings

end AdaptiveConsensus
