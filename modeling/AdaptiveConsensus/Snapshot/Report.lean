import AdaptiveConsensus.Reward
import AdaptiveConsensus.Snapshot.Directory
import AdaptiveConsensus.Table

/-!
# The bucket report

A summary of a snapshot directory as the pairwise strategies see it (bin/report_buckets.rs:30-107): for
each pair of the protocol that ran and the protocol chosen the number of records and their mean target.
The rows are counted file by file, as they are read.
-/

namespace AdaptiveConsensus

open Decimal Text

/-- The records of one pair. -/
structure BucketSummary where
  count : Nat
  rewardSum : Float
  deriving DecidableEq

namespace BucketSummary

/-- The mean target, if there are records. -/
def mean? (b : BucketSummary) : Option Float :=
  if b.count = 0 then none else some (b.rewardSum / Float.ofNat b.count)

/-- The summary with one more record. -/
def add (b : BucketSummary) (throughput : Float) : BucketSummary :=
  ⟨b.count + 1, b.rewardSum + shapeReward throughput⟩

end BucketSummary

/-- A report on a directory. -/
structure BucketReport where
  cells : Table (Protocol × Protocol) BucketSummary
  totalRows : Nat

namespace BucketReport

/-- The report on no rows. -/
def empty : BucketReport :=
  ⟨Table.ofFn fun _ => ⟨0, 0.0⟩, 0⟩

/-- The report with the row of one more decision. -/
def addRow (r : BucketReport) (row : HistoryRow) : BucketReport :=
  { r with cells := r.cells.modify (row.previous, row.action) fun cell => cell.add row.throughput }

/-- The report with one more file, which may give nothing. -/
def addFile (d : Directory) (r : BucketReport) (e : Entry) : BucketReport :=
  match d.readEntry e with
  | .error _ => r
  | .ok rows => rows.foldl addRow { r with totalRows := r.totalRows + rows.length }

/-- The report on the snapshots of a unit. -/
def ofDirectory (d : Directory) (unit : UInt32) : Except ListingError BucketReport :=
  match d.snapshotFiles unit with
  | .error e => .error e
  | .ok files => .ok (files.foldl (addFile d) empty)

/-- A text on the left of a field of some width. -/
def padRight (width : Nat) (text : List Char) : List Char :=
  text ++ List.replicate (width - text.length) ' '

/-- A text on the right of a field of some width. -/
def padLeft (width : Nat) (text : List Char) : List Char :=
  List.replicate (width - text.length) ' ' ++ text

/-- A line of the report's table. -/
def tableLine (previous action count mean : List Char) : List Char :=
  padRight 10 previous ++ ' ' :: padRight 10 action ++ ' ' :: padLeft 8 count ++ ' ' :: padLeft 14 mean

/-- The line of a pair. -/
def cellLine (r : BucketReport) (k : Protocol × Protocol) : List Char :=
  let cell := r.cells.get k
  let mean := match cell.mean? with
    | some m => fixed64 3 m
    | none => ['-']
  tableLine k.1.name.toList k.2.name.toList (natText cell.count) mean

/-- The report as it is printed. -/
def text (r : BucketReport) (unit : UInt32) : String :=
  let title := s!"--- Bucket report for unit {unit.toNat} ({r.totalRows} rows) ---".toList
  let head := tableLine "previous".toList "action".toList "count".toList "mean reward".toList
  let lines := [] :: title :: head :: (Indexed.keys (Protocol × Protocol)).map r.cellLine
  String.ofList (lines.flatMap fun line => line ++ ['\n'])

end BucketReport

end AdaptiveConsensus
