import AdaptiveConsensus.State

/-!
# Regression learners

A bucket predicts throughput with a regression model (rl/bucket.rs:58-95, rl/experience.rs:33-48). What
it needs of one is an interface: a model is fitted to a training set with a seed, and predicts one
number for each row of a matrix. The random forest is one learner; statements about strategies hold for
every learner.
-/

namespace AdaptiveConsensus

/-- The rows a model is fitted to. The `i`-th target belongs to the `i`-th row. -/
structure TrainingSet where
  x : List Features
  y : List Float
  deriving DecidableEq

namespace TrainingSet

/-- The training set of labelled records. -/
def ofRecords (records : List (Features × Float)) : TrainingSet :=
  ⟨records.map Prod.fst, records.map Prod.snd⟩

/-- The number of targets. -/
def size (set : TrainingSet) : Nat :=
  set.y.length

/-- At least one row, as many rows as targets, and every row of one width. -/
def WellFormed (width : Nat) (set : TrainingSet) : Prop :=
  set.x ≠ [] ∧ set.x.length = set.y.length ∧ ∀ row ∈ set.x, row.length = width

end TrainingSet

/-- Why a model could not be fitted or asked. -/
inductive LearnerError where
  /-- A matrix needs a row. -/
  | noRows
  /-- A row ends before the columns of the first row do; an entry past its end was asked for. -/
  | outOfRange (length index : Nat)
  /-- A model asked for a column that the matrix of queries lacks. -/
  | noColumn (row column rows columns : Nat)
  /-- A position or a length would have been less than zero. -/
  | belowZero
  /-- The learner gave up. -/
  | failed (reason : String)
  deriving DecidableEq, Repr

namespace LearnerError

/-- The wording of a cause. -/
def message : LearnerError → String
  | .noRows => "Cannot create 2d matrix from an empty vector"
  | .outOfRange length index => s!"index out of bounds: the len is {length} but the index is {index}"
  | .noColumn row column rows columns =>
    s!"Invalid index ({row},{column}) for {rows}x{columns} matrix"
  | .belowZero => "attempt to subtract with overflow"
  | .failed reason => reason

/-- Whether the cause is a fault in the input's shape, which no caller handles. -/
def isFault : LearnerError → Bool
  | .failed _ => false
  | _ => true

end LearnerError

/-- A way to fit and ask models of one type. -/
structure Learner where
  /-- A fitted model. -/
  Model : Type
  /-- The model of a training set and a seed. -/
  fit : TrainingSet → UInt64 → Except LearnerError Model
  /-- A model's estimates for the rows of a matrix. -/
  predict : Model → List Features → Except LearnerError (List Float)

end AdaptiveConsensus
