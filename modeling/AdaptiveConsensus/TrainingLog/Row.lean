import AdaptiveConsensus.Cause
import AdaptiveConsensus.Decimal.Layout
import AdaptiveConsensus.Decimal.Read
import AdaptiveConsensus.Strategy.Decision

/-!
# Rows of the training log

A row of the log is one resolved decision (utils/training_log.rs:14-74): the feature columns, the
protocol that ran, the protocol chosen, the raw throughput and the two costs. Features and throughput
are written so that they read back, costs with six places. The tail of a row has five cells, so that a
reader can count them from the end whatever the number of features.
-/

namespace AdaptiveConsensus

open Decimal Text

/-- One resolved decision. -/
structure TrainingRow where
  features : Features
  previous : Protocol
  chosen : Protocol
  throughput : Float
  cost : Cost
  deriving DecidableEq

/-- Why a line is no row of the log. -/
inductive TrainingRowError where
  | tooShort (cells : Nat)
  | badNumber (text : String) (cause : NumberError)
  | unknownProtocol (cause : UnknownProtocol)
  deriving DecidableEq, Repr

namespace TrainingRow

/-- How many cells follow the features. -/
def tailCells : Nat := 5

instance : Cause TrainingRowError where
  chain
    | .tooShort cells => [s!"Training row has {cells} fields, expected at least {tailCells}"]
    | .badNumber text cause => [s!"Bad number '{text}'", cause.message]
    | .unknownProtocol cause => [cause.message]

/-- The cells of a row. -/
def toCells (row : TrainingRow) : List (List Char) :=
  row.features.map display64 ++
    [row.previous.name.toList, row.chosen.name.toList, display64 row.throughput,
      fixed64 6 row.cost.training, fixed64 6 row.cost.inference]

/-- The line of a row. -/
def toLine (row : TrainingRow) : List Char :=
  [','].intercalate row.toCells

/-- A cell that holds a number. -/
def readNumber (cell : List Char) : Except TrainingRowError Float :=
  match readFloat cell with
  | .ok x => .ok x
  | .error e => .error (.badNumber (String.ofList cell) e)

/-- A cell that holds a protocol's name. -/
def readProtocol (cell : List Char) : Except TrainingRowError Protocol :=
  match Protocol.read cell with
  | .ok p => .ok p
  | .error e => .error (.unknownProtocol e)

/-- The row of its features and of the five cells that follow them. -/
def ofTail (features : Features) (tail : List (List Char)) : Except TrainingRowError TrainingRow :=
  match tail with
  | [previous, chosen, throughput, training, inference] => do
    let previous ← readProtocol previous
    let chosen ← readProtocol chosen
    let throughput ← readNumber throughput
    let training ← readNumber training
    let inference ← readNumber inference
    return ⟨features, previous, chosen, throughput, ⟨training, inference⟩⟩
  | _ => .error (.tooShort tail.length)

/-- The row that a line stands for. Blanks around the line and around its cells do not matter. -/
def parse (line : List Char) : Except TrainingRowError TrainingRow := do
  let cells := trimmedCells (trim line)
  if cells.length < tailCells then .error (.tooShort cells.length)
  else
    let split := cells.length - tailCells
    let features ← (cells.take split).mapM readNumber
    ofTail features (cells.drop split)

/-- The names of the columns of the two costs. -/
def costColumns : List String :=
  ["training_overhead(s)", "inference_overhead(s)"]

/-- The names of the columns that tell a decision and its throughput. -/
def decisionColumns : List String :=
  ["previous_action", "action", "throughput"]

/-- The header of a log: the columns of a row with the six state features. -/
def header : List Char :=
  [','].intercalate
    ((StateVector.columns ++ decisionColumns ++ costColumns).map String.toList)

end TrainingRow

end AdaptiveConsensus
