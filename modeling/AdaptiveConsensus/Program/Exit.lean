import AdaptiveConsensus.Cause
import AdaptiveConsensus.Config.CommandLine

/-!
# How a program ends

A program leaves a status, a text for its output and a text for its operator (main.rs:92-137,
bin/report_buckets.rs:42-107). The status is zero if it did what it was asked, one if it failed, and two
if its command line was wrong. A failure is told by its outermost sentence, followed by its causes.
-/

namespace AdaptiveConsensus

/-- The end of a program. -/
structure Exit where
  status : UInt8
  output : String
  complaint : String
  deriving DecidableEq, Repr

/-! ## Complaints -/

/-- A text whose first line begins with one margin and whose other lines begin with another. -/
def withMargins (first other text : String) : String :=
  first ++ s!"\n{other}".intercalate (text.splitOn "\n")

/-- A cause among several, with its number. -/
def numberedCause (number : Nat) (cause : String) : String :=
  withMargins s!"    {number}: " "       " cause

/-- The lines that tell the causes of a failure. A cause that stands alone has no number. -/
def causeLines : List String → List String
  | [] => []
  | [cause] => ["", "Caused by:", withMargins "    " "    " cause]
  | causes => "" :: "Caused by:" :: (causes.zipIdx.map fun (cause, number) => numberedCause number cause)

/-- The complaint about a failure whose sentences are given, the outermost first. -/
def complaintText : List String → String
  | [] => ""
  | outermost :: causes =>
    String.join ((s!"Error: {outermost}" :: causeLines causes).map fun line => line ++ "\n")

namespace UsageError

/-- What is wrong with a command line. -/
def message : UsageError → String
  | missingRequired => "a required option is not given"
  | unknownWord => "the command line has a word that is not known"
  | missingValue => "an option has no value"
  | unreadableValue => "the value of an option cannot be read"
  | needlessValue => "an option that takes no value has one"
  | repeatedOption => "an option is given more than once"
  | helpAsked => "help is asked for"
  | versionAsked => "the version is asked for"

end UsageError

namespace Exit

/-- The end of a program that did what it was asked. -/
def success (output : String) : Exit := ⟨0, output, ""⟩

/-- The end of a program that failed. -/
def failure {ε : Type} [Cause ε] (e : ε) : Exit :=
  ⟨1, "", complaintText (Cause.chain e)⟩

/-- The end of a program whose command line gives it nothing to do. -/
def ofUsage {σ : Type} (spec : CommandLine σ) : UsageError → Exit
  | .helpAsked => success spec.help
  | .versionAsked => success spec.versionText
  | e => ⟨2, "", s!"error: {e.message}\n"⟩

end Exit

end AdaptiveConsensus
