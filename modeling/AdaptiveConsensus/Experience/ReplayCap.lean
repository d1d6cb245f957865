/-!
# Replay caps

A replay cap bounds how many of the most recent records a training pass may draw from
(rl/experience.rs:5-31).
-/

namespace AdaptiveConsensus

/-- At most `limit` records, or all of them. -/
structure ReplayCap where
  limit : Option Nat
  deriving DecidableEq, Repr

namespace ReplayCap

/-- No bound. -/
def unlimited : ReplayCap := ⟨none⟩

/-- The cap of a limit as it is given on the command line, where anything below one means none. -/
def ofLimit (limit : Int) : ReplayCap :=
  if limit ≤ 0 then unlimited else ⟨some limit.toNat⟩

/-- How many of `available` records may be drawn from. -/
def window (cap : ReplayCap) (available : Nat) : Nat :=
  match cap.limit with
  | some limit => min limit available
  | none => available

theorem window_le (cap : ReplayCap) (available : Nat) : cap.window available ≤ available := by
  unfold window
  split
  · exact Nat.min_le_right _ _
  · exact Nat.le_refl _

end ReplayCap

end AdaptiveConsensus
