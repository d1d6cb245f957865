import AdaptiveConsensus.TrainingLog.Row

/-!
# Snapshot files

A snapshot file tells the decisions of an earlier run (rl/snapshot.rs:15-95): a header row with the
names of the columns, then one row per decision. The columns are found by name, so that their order is
free and other columns may stand among them. Blank lines are passed over and not counted. One bad row
refuses the whole file.
-/

namespace AdaptiveConsensus

open Decimal Text

/-- Why a row of a snapshot is refused. -/
inductive CellError where
  | missing (cells column : Nat)
  | badState (column : Nat) (cause : NumberError)
  | badThroughput (cause : NumberError)
  | unknownProtocol (cause : UnknownProtocol)
  deriving DecidableEq, Repr

/-- Why a snapshot is refused. Rows are numbered from one. -/
inductive SnapshotError where
  | noHeader
  | missingColumn (name : String)
  | badRow (number : Nat) (cause : CellError)
  deriving DecidableEq, Repr

instance : Cause CellError where
  chain
    | .missing cells column => [s!"Row has {cells} fields, needed column {column}"]
    | .badState column cause => [s!"Bad state value in column {column}", cause.message]
    | .badThroughput cause => ["Bad throughput value", cause.message]
    | .unknownProtocol cause => [cause.message]

instance : Cause SnapshotError where
  chain
    | .noHeader => ["Snapshot has no header row"]
    | .missingColumn name => [s!"Missing column '{name}'"]
    | .badRow number cause => s!"Invalid snapshot row {number}" :: Cause.chain cause

namespace Snapshot

/-- Where the columns of a snapshot stand. -/
structure ColumnMap where
  fastPathFrequency : Nat
  proposalSlowness : Nat
  requestSize : Nat
  messagesPerSlot : Nat
  hasFastPath : Nat
  hasLeaderRotation : Nat
  previous : Nat
  action : Nat
  throughput : Nat
  deriving DecidableEq, Repr

/-- The first column of a name. -/
def findColumn (names : List (List Char)) (name : String) : Except SnapshotError Nat :=
  match names.findIdx? (· == name.toList) with
  | some column => .ok column
  | none => .error (.missingColumn name)

/-- The columns that a header row names. -/
def ColumnMap.ofHeader (header : List Char) : Except SnapshotError ColumnMap := do
  let find := findColumn (trimmedCells header)
  return {
    fastPathFrequency := ← find "FAST_PATH_FREQUENCY"
    proposalSlowness := ← find "SLOWNESS_OF_PROPOSAL"
    requestSize := ← find "REQUEST_SIZE"
    messagesPerSlot := ← find "MESSAGE_PER_SLOT"
    hasFastPath := ← find "HAS_FAST_PATH"
    hasLeaderRotation := ← find "HAS_LEADER_ROTATION"
    previous := ← find "previous_action"
    action := ← find "action"
    throughput := ← find "throughput" }

/-- The cell of a row in a column. -/
def cellAt (cells : List (List Char)) (column : Nat) : Except CellError (List Char) :=
  match cells[column]? with
  | some cell => .ok cell
  | none => .error (.missing cells.length column)

/-- A state feature of a row. -/
def readState (cells : List (List Char)) (column : Nat) : Except CellError Float := do
  match readFloat (← cellAt cells column) with
  | .ok x => .ok x
  | .error e => .error (.badState column e)

/-- A protocol of a row. -/
def readProtocol (cells : List (List Char)) (column : Nat) : Except CellError Protocol := do
  match Protocol.read (← cellAt cells column) with
  | .ok p => .ok p
  | .error e => .error (.unknownProtocol e)

/-- The throughput of a row. -/
def readThroughput (cells : List (List Char)) (column : Nat) : Except CellError Float := do
  match readFloat (← cellAt cells column) with
  | .ok x => .ok x
  | .error e => .error (.badThroughput e)

/-- The decision that a row tells. -/
def ColumnMap.parseRow (columns : ColumnMap) (line : List Char) : Except CellError HistoryRow := do
  let cells := trimmedCells line
  let state : StateVector := {
    fastPathFrequency := ← readState cells columns.fastPathFrequency
    proposalSlowness := ← readState cells columns.proposalSlowness
    requestSize := ← readState cells columns.requestSize
    messagesPerSlot := ← readState cells columns.messagesPerSlot
    hasFastPath := ← readState cells columns.hasFastPath
    hasLeaderRotation := ← readState cells columns.hasLeaderRotation }
  let previous ← readProtocol cells columns.previous
  let action ← readProtocol cells columns.action
  let throughput ← readThroughput cells columns.throughput
  return ⟨state, previous, action, throughput⟩

/-- The decisions of rows, the first of which has the given number. -/
def parseRows (columns : ColumnMap) : Nat → List (List Char) → Except SnapshotError (List HistoryRow)
  | _, [] => .ok []
  | number, line :: rest =>
    match columns.parseRow line with
    | .error cause => .error (.badRow number cause)
    | .ok row =>
      match parseRows columns (number + 1) rest with
      | .error e => .error e
      | .ok rows => .ok (row :: rows)

/-- The decisions that a snapshot tells. -/
def parse (text : List Char) : Except SnapshotError (List HistoryRow) :=
  match contentLines text with
  | [] => .error .noHeader
  | header :: rows =>
    match ColumnMap.ofHeader header with
    | .error e => .error e
    | .ok columns => parseRows columns 1 rows

end Snapshot

end AdaptiveConsensus
