import AdaptiveConsensus.Text.Split

/-!
# Names of strategies and estimators

On the command line a strategy (utils/agent_config.rs:16-131) is given by its name or by one of its
descriptive names, and the regression model by its name; blanks around a name and its letter case do not
matter.
-/

namespace AdaptiveConsensus

/-- Which strategy drives the decisions. -/
inductive StrategyKind where
  | quadratic
  | staticOffline
  | perAction
  | single
  | reduced
  | ruleBased
  deriving DecidableEq, Repr

/-- Which regression model the buckets use. -/
inductive EstimatorKind where
  | randomForest
  | neuralNetwork
  deriving DecidableEq, Repr

/-- A choice of strategy or estimator that cannot be followed. -/
inductive ChoiceError where
  | unknownStrategy (text : String)
  | unknownEstimator (text : String)
  | unsupportedEstimator (kind : EstimatorKind)
  deriving DecidableEq, Repr

namespace StrategyKind

/-- The name that the kind is shown under. -/
def name : StrategyKind → String
  | quadratic => "quadratic"
  | staticOffline => "adapt+"
  | perAction => "multi"
  | single => "single"
  | reduced => "adapt"
  | ruleBased => "heuristic"

/-- All kinds. -/
def all : List StrategyKind :=
  [quadratic, staticOffline, perAction, single, reduced, ruleBased]

/-- The names a kind may be given by. -/
def aliases : StrategyKind → List String
  | quadratic => ["quadratic"]
  | staticOffline => ["adapt+", "static", "static-offline"]
  | perAction => ["multi", "per-action"]
  | single => ["single"]
  | reduced => ["adapt", "reduced"]
  | ruleBased => ["heuristic", "rule-based"]

/-- The kind of a name. -/
def read (text : String) : Except ChoiceError StrategyKind :=
  let name := Text.foldCase (Text.trim text.toList)
  match all.find? fun kind => kind.aliases.any fun a => a.toList == name with
  | some kind => .ok kind
  | none => .error (.unknownStrategy text)

end StrategyKind

namespace EstimatorKind

/-- The name of an estimator. -/
def name : EstimatorKind → String
  | randomForest => "random-forest"
  | neuralNetwork => "neural-network"

/-- The estimator of a name. -/
def read (text : String) : Except ChoiceError EstimatorKind :=
  let name := Text.foldCase (Text.trim text.toList)
  match [randomForest, neuralNetwork].find? fun kind => kind.name.toList == name with
  | some kind => .ok kind
  | none => .error (.unknownEstimator text)

/-- Only the random forest is there to be used. -/
def ensureSupported : EstimatorKind → Except ChoiceError EstimatorKind
  | randomForest => .ok randomForest
  | neuralNetwork => .error (.unsupportedEstimator neuralNetwork)

end EstimatorKind

namespace ChoiceError

/-- The wording of a cause. -/
def message : ChoiceError → String
  | unknownStrategy text =>
    s!"Invalid number of models '{text}' (expected multi, single, quadratic, adapt, adapt+, or heuristic)"
  | unknownEstimator text => s!"Unknown predictive model '{text}'"
  | unsupportedEstimator kind => s!"Predictive model '{kind.name}' is not implemented yet"

end ChoiceError

end AdaptiveConsensus
