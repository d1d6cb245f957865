import AdaptiveConsensus.Config.AgentOptions

/-!
# The options of the bucket report

What can be said on the command line of the program that prints the bucket report of a unit
(bin/report_buckets.rs:18-28).
-/

namespace AdaptiveConsensus

/-- The report's options as far as they are known. -/
structure ReportOptions where
  unit : Option UInt32
  snapshotDirectory : String
  deriving DecidableEq, Repr

namespace ReportOptions

/-- The options of an empty command line. -/
def defaults : ReportOptions := ⟨none, defaultSnapshotDirectory⟩

/-- The options themselves, in the order in which help shows them. -/
def specs : List (OptionSpec ReportOptions) :=
  [{ long := "unit", letter := some 'u',
     action := .put OptionValue.word32 fun unit o => { o with unit := some unit },
     description := "Unit whose snapshots are summarised",
     placeholder := "UNIT", default := none, required := true },
   { long := "snapshot-dir", letter := none,
     action := .put OptionValue.path fun path o => { o with snapshotDirectory := path },
     description := "Directory of historical runs",
     placeholder := "SNAPSHOT_DIR", default := some defaultSnapshotDirectory, required := false },
   .help, .version]

/-- The report's command line. -/
def command : CommandLine ReportOptions :=
  ⟨"report_buckets", agentPackage, specs⟩

/-- Reads a command line: the unit and the directory of its history. -/
def read (words : List String) : Except UsageError (UInt32 × String) := do
  let o ← command.parse defaults words
  let unit ← CommandLine.require o.unit
  return (unit, o.snapshotDirectory)

end ReportOptions

end AdaptiveConsensus
