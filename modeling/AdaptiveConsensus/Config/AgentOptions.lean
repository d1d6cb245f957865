import AdaptiveConsensus.Config.CommandLine
import AdaptiveConsensus.Decimal.Whole
import AdaptiveConsensus.Power

/-!
# The agent's options

What can be said on the agent's command line (main.rs:22-64, utils/constants.rs), and what holds if it
is not said. The unit and the port have to be given.

* `OptionValue`: how the values of options are read.
* `AgentOptions.command`: the command line.
* `AgentOptions.read`: reads it.
-/

namespace AdaptiveConsensus

open Decimal

/-! ## Values of options -/

namespace OptionValue

/-- A whole number from zero to a largest one; zero may have a minus sign. -/
def bounded (largest : Nat) (text : String) : Except UsageError Nat :=
  match readInt64 text.toList with
  | some n => if 0 ≤ n ∧ n ≤ largest then .ok n.toNat else .error .unreadableValue
  | none => .error .unreadableValue

/-- A 32-bit word. -/
def word32 (text : String) : Except UsageError UInt32 :=
  (bounded (twoTo 32 - 1) text).map UInt32.ofNat

/-- A 16-bit word. -/
def word16 (text : String) : Except UsageError UInt16 :=
  (bounded (twoTo 16 - 1) text).map UInt16.ofNat

/-- A count, which has no minus sign. -/
def count (text : String) : Except UsageError Nat :=
  match readNat largestWord64 text.toList with
  | some n => .ok n
  | none => .error .unreadableValue

/-- A whole number with either sign. -/
def integer (text : String) : Except UsageError Int :=
  match readInt64 text.toList with
  | some n => .ok n
  | none => .error .unreadableValue

/-- A path, which is not empty. -/
def path (text : String) : Except UsageError String :=
  if text = "" then .error .missingValue else .ok text

end OptionValue

namespace OptionAction

/-- Reads a value and puts it into the draft. -/
def put {σ α : Type} (read : String → Except UsageError α) (set : α → σ → σ) : OptionAction σ :=
  .value false fun text draft => (read text).map fun value => set value draft

end OptionAction

/-- The package of the agent and of the program that prints its bucket report. -/
def agentPackage : Package where
  name := "protocol_agent"
  release := "0.1.0"
  about := "Online learning agent that picks the next consensus protocol for a replicated system"

/-! ## The agent -/

/-- The agent's options as far as they are known. -/
structure AgentOptions where
  unit : Option UInt32
  port : Option UInt16
  episodes : Nat
  model : String
  strategy : String
  discard : Nat
  replayLimit : Int
  oneHot : Bool
  snapshotDirectory : String
  dataDirectory : String
  deriving DecidableEq, Repr

/-- The directory that holds the history unless another is named. -/
def defaultSnapshotDirectory : String := "checkpoint"

namespace AgentOptions

/-- The options of an empty command line. -/
def defaults : AgentOptions where
  unit := none
  port := none
  episodes := 10000
  model := "random-forest"
  strategy := "quadratic"
  discard := 5
  replayLimit := -1
  oneHot := false
  snapshotDirectory := defaultSnapshotDirectory
  dataDirectory := "data"

/-- The options themselves, in the order in which help shows them. -/
def specs : List (OptionSpec AgentOptions) :=
  [{ long := "unit", letter := some 'u',
     action := .put OptionValue.word32 fun unit o => { o with unit := some unit },
     description := "Unit id of the entity this agent serves",
     placeholder := "UNIT", default := none, required := true },
   { long := "port", letter := some 'p',
     action := .put OptionValue.word16 fun port o => { o with port := some port },
     description := "Base port; the agent listens on port+20 and the entity on port+10",
     placeholder := "PORT", default := none, required := true },
   { long := "episodes", letter := some 'e',
     action := .put OptionValue.count fun episodes o => { o with episodes := episodes },
     description := "Number of episodes to run",
     placeholder := "EPISODES", default := some "10000", required := false },
   { long := "model", letter := some 'm',
     action := .put .ok fun model o => { o with model := model },
     description := "Predictive model (random-forest or neural-network)",
     placeholder := "MODEL", default := some "random-forest", required := false },
   { long := "num-models", letter := some 'n',
     action := .put .ok fun strategy o => { o with strategy := strategy },
     description := "Strategy: quadratic, multi, single, adapt, adapt+ or heuristic",
     placeholder := "NUM_MODELS", default := some "quadratic", required := false },
   { long := "discard", letter := some 'd',
     action := .put OptionValue.count fun discard o => { o with discard := discard },
     description := "Warm-up episodes to discard so they do not pollute the experience buffer",
     placeholder := "DISCARD", default := some "5", required := false },
   { long := "replay-buffer", letter := some 'r',
     action := .value true fun text o =>
       (OptionValue.integer text).map fun limit => { o with replayLimit := limit },
     description := "Replay buffer size for retraining; non-positive means unlimited",
     placeholder := "REPLAY_BUFFER", default := some "-1", required := false },
   { long := "multi-onehot", letter := some 'o',
     action := .mark fun o => { o with oneHot := true },
     description := "Replace the per-action flag columns with a one-hot of the current protocol",
     placeholder := "", default := none, required := false },
   { long := "snapshot-dir", letter := none,
     action := .put OptionValue.path fun path o => { o with snapshotDirectory := path },
     description := "Directory of historical runs used to seed the models",
     placeholder := "SNAPSHOT_DIR", default := some defaultSnapshotDirectory, required := false },
   { long := "data-dir", letter := none,
     action := .put OptionValue.path fun path o => { o with dataDirectory := path },
     description := "Directory the training log is written to",
     placeholder := "DATA_DIR", default := some "data", required := false },
   .help, .version]

/-- The agent's command line. -/
def command : CommandLine AgentOptions :=
  ⟨"learning_agent", agentPackage, specs⟩

/-- Reads a command line that names a unit and a port. -/
def read (words : List String) : Except UsageError (AgentOptions × UInt32 × UInt16) := do
  let o ← command.parse defaults words
  let unit ← CommandLine.require o.unit
  let port ← CommandLine.require o.port
  return (o, unit, port)

end AgentOptions

end AdaptiveConsensus
