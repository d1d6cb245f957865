import AdaptiveConsensus.Text.Split

/-!
# The protocol pool

The agent chooses among six consensus protocols (models/protocol.rs:7-81). Their order in the pool
numbers the buckets of the bucketed strategies and the columns of a one-hot encoding.

* `ofIndex_index`, `index_ofIndex`: a protocol and its position determine each other.
* `read?_name`: a protocol's name is read back.
-/

namespace AdaptiveConsensus

/-- A consensus protocol that the replicated system can run. -/
inductive Protocol where
  | pbft
  | zyzzyva
  | cheapBft
  | sbft
  | hotStuff
  | prime
  deriving DecidableEq, Repr

namespace Protocol

/-- All protocols, in pool order. -/
def pool : List Protocol :=
  [pbft, zyzzyva, cheapBft, sbft, hotStuff, prime]

/-- A protocol's position in the pool. -/
def index : Protocol → Fin 6
  | pbft => 0
  | zyzzyva => 1
  | cheapBft => 2
  | sbft => 3
  | hotStuff => 4
  | prime => 5

/-- The protocol at a position of the pool. -/
def ofIndex : Fin 6 → Protocol
  | 0 => pbft
  | 1 => zyzzyva
  | 2 => cheapBft
  | 3 => sbft
  | 4 => hotStuff
  | 5 => prime

@[simp] theorem ofIndex_index (p : Protocol) : ofIndex p.index = p := by
  cases p <;> rfl

@[simp] theorem index_ofIndex (i : Fin 6) : (ofIndex i).index = i := by
  revert i; decide

theorem mem_pool (p : Protocol) : p ∈ pool := by
  cases p <;> decide

/-- The name under which a protocol is written in rows and messages. -/
def name : Protocol → String
  | pbft => "pbft"
  | zyzzyva => "zyzzyva"
  | cheapBft => "cheapbft"
  | sbft => "sbft"
  | hotStuff => "hotstuff"
  | prime => "prime"

/-- A one in the protocol's column and a zero in the five others. -/
def oneHot (p : Protocol) : List Float :=
  pool.map fun q => if q = p then 1.0 else 0.0

/-- The protocol with a name, which may stand between blanks and in any letter case. -/
def read? (text : List Char) : Option Protocol :=
  let name := Text.foldCase (Text.trim text)
  pool.find? fun p => p.name.toList == name

theorem read?_name (p : Protocol) : read? p.name.toList = some p := by
  cases p <;> decide

end Protocol

/-- A text that names no protocol of the pool. -/
structure UnknownProtocol where
  text : String
  deriving DecidableEq, Repr

namespace UnknownProtocol

/-- The wording shows the name without the blanks around it. -/
def message (e : UnknownProtocol) : String :=
  s!"Unknown protocol '{String.ofList (Text.trim e.text.toList)}'"

end UnknownProtocol

/-- Reads a protocol's name, or says that there is none of that name. -/
def Protocol.read (text : List Char) : Except UnknownProtocol Protocol :=
  match Protocol.read? text with
  | some p => .ok p
  | none => .error ⟨String.ofList text⟩

end AdaptiveConsensus
