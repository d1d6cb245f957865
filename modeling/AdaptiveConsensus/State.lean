import AdaptiveConsensus.Protocol

/-!
# What the agent observes

A report describes one episode by six runtime features (models/state.rs:2-45, comm/wire.rs:67-74). A
history row pairs the features of an earlier episode with the decision taken on them and the throughput
that decision produced.
-/

namespace AdaptiveConsensus

/-- The input row of a regression model. -/
abbrev Features := List Float

/-- The six runtime features of one episode. -/
structure StateVector where
  fastPathFrequency : Float
  proposalSlowness : Float
  requestSize : Float
  messagesPerSlot : Float
  hasFastPath : Float
  hasLeaderRotation : Float
  deriving DecidableEq

namespace StateVector

/-- How many features a state has. -/
def width : Nat := 6

/-- The features in column order. -/
def toList (s : StateVector) : Features :=
  [s.fastPathFrequency, s.proposalSlowness, s.requestSize, s.messagesPerSlot, s.hasFastPath,
    s.hasLeaderRotation]

/-- The features without the two flags that describe the running protocol. -/
def withoutFlags (s : StateVector) : Features :=
  [s.fastPathFrequency, s.proposalSlowness, s.requestSize, s.messagesPerSlot]

@[simp] theorem length_toList (s : StateVector) : s.toList.length = width := rfl

theorem toList_inj {s t : StateVector} (h : s.toList = t.toList) : s = t := by
  cases s; cases t; simp_all [toList]

theorem exists_toList {xs : Features} (h : xs.length = width) : ∃ s : StateVector, s.toList = xs := by
  match xs, h with
  | [a, b, c, d, e, f], _ => exact ⟨⟨a, b, c, d, e, f⟩, rfl⟩

/-- The names of the features in snapshot files and in the training log, in column order. -/
def columns : List String :=
  ["FAST_PATH_FREQUENCY", "SLOWNESS_OF_PROPOSAL", "REQUEST_SIZE", "MESSAGE_PER_SLOT",
    "HAS_FAST_PATH", "HAS_LEADER_ROTATION"]

end StateVector

/-- One decision of an earlier run, with the throughput it produced. -/
structure HistoryRow where
  state : StateVector
  previous : Protocol
  action : Protocol
  throughput : Float
  deriving DecidableEq

/-- What the controller hears about one episode: the state, the protocol that was running while it
was measured, and the raw throughput. -/
structure StateReport where
  state : StateVector
  current : Protocol
  reward : Float
  deriving DecidableEq

end AdaptiveConsensus
