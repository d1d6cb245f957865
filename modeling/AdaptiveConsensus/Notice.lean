/-!
# Notices

What the agent tells its operator as it starts (utils/agent_config.rs:207-243, utils/env.rs:9-23).
-/

namespace AdaptiveConsensus

/-- How much a notice matters. -/
inductive Level where
  | info
  | warn
  | error
  deriving DecidableEq, Repr

namespace Level

/-- The name of a level. -/
def name : Level → String
  | info => "INFO"
  | warn => "WARN"
  | error => "ERROR"

end Level

/-- A line for the operator. -/
structure Notice where
  level : Level
  text : String
  deriving DecidableEq, Repr

namespace Notice

/-- A notice that all is as it should be. -/
def info (text : String) : Notice := ⟨.info, text⟩

/-- A notice that something was passed over. -/
def warn (text : String) : Notice := ⟨.warn, text⟩

end Notice

end AdaptiveConsensus
