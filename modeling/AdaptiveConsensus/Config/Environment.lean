/-!
# Environment variables

The variables of the process, which the agent reads its seed, the size of its forests and the address of
the replicated system from (utils/agent_config.rs:149-164, 196-205).
-/

namespace AdaptiveConsensus

/-- Variables with their values. -/
structure Environment where
  bindings : List (String × String)
  deriving DecidableEq, Repr

namespace Environment

/-- No variables. -/
def empty : Environment := ⟨[]⟩

/-- The value of a variable, if it is set. -/
def get? (env : Environment) (name : String) : Option String :=
  env.bindings.lookup name

/-- The environment in which a variable has a value, unless it has one already. -/
def setDefault (env : Environment) (name value : String) : Environment :=
  match env.get? name with
  | some _ => env
  | none => ⟨env.bindings ++ [(name, value)]⟩

/-- The value of a variable with a name, or nothing. -/
def substitute (env : Environment) (name : List Char) : List Char :=
  match env.get? (String.ofList name) with
  | some value => value.toList
  | none => []

end Environment

end AdaptiveConsensus
