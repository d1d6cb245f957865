/-!
# Causes of failure

Every failure is a value of a type of causes (rl/bucket.rs:71, 83, 88, 93, rl/orchestrator.rs:94-99).
Its wording is a chain of sentences, the outermost first, each saying what the next one led to;
`message` joins them.
-/

namespace AdaptiveConsensus

/-- A type of causes with a wording. -/
class Cause (ε : Type) where
  /-- The sentences of the wording, the outermost first. -/
  chain : ε → List String

namespace Cause

/-- The wording in one line. -/
def message {ε : Type} [Cause ε] (e : ε) : String :=
  ": ".intercalate (chain e)

end Cause

/-- What the operating system says when a file or a connection cannot be used. -/
inductive SystemError where
  | notFound
  | alreadyExists
  | isDirectory
  | notText
  | unreachable
  | refused
  /-- Any other complaint, in its own words. -/
  | other (text : String)
  deriving DecidableEq, Repr

namespace SystemError

/-- The system's wording. -/
def message : SystemError → String
  | notFound => "No such file or directory (os error 2)"
  | alreadyExists => "File exists (os error 17)"
  | isDirectory => "Is a directory (os error 21)"
  | notText => "stream did not contain valid UTF-8"
  | unreachable => "Network is unreachable (os error 101)"
  | refused => "Connection refused (os error 111)"
  | other text => text

end SystemError

end AdaptiveConsensus
