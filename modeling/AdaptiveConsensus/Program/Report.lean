import AdaptiveConsensus.Config.ReportOptions
import AdaptiveConsensus.Program.Exit
import AdaptiveConsensus.Snapshot.Report

/-!
# The report program

The program that prints the bucket report of a unit (bin/report_buckets.rs:42-107). It asks for one
directory, and ends with what it finds there.
-/

namespace AdaptiveConsensus

namespace ReportProgram

/-- The unit and the directory that a command line asks for. -/
def request (words : List String) : Except Exit (UInt32 × String) :=
  match ReportOptions.read words with
  | .error e => .error (.ofUsage ReportOptions.command e)
  | .ok r => .ok r

/-- The end of the program when it has seen the directory. -/
def conclude (unit : UInt32) (d : Directory) : Exit :=
  match BucketReport.ofDirectory d unit with
  | .error e => .failure e
  | .ok report => .success (report.text unit)

/-- The program where every path has a directory. -/
def run (directoryAt : String → Directory) (words : List String) : Exit :=
  match request words with
  | .error exit => exit
  | .ok (unit, path) => conclude unit (directoryAt path)

end ReportProgram

end AdaptiveConsensus
