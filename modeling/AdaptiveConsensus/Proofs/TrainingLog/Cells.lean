import AdaptiveConsensus.Proofs.Snapshot.Cells
import AdaptiveConsensus.Proofs.Text.Blanks

/-!
# What a line of the log tells

A line tells a row of the log if its last five cells tell the protocols, the throughput and the costs,
and the cells before them the features. How many features there are is not fixed.

- `TrainingRow.parse_eq_ok_iff`: a line is read as the row that it tells.
-/

namespace AdaptiveConsensus

open Decimal Text

namespace TrainingRow

theorem readNumber_eq_ok_iff {cell : List Char} {x : Float} :
    readNumber cell = .ok x ↔ readFloat cell = .ok x := by
  rw [readNumber]
  cases readFloat cell <;> simp

theorem readProtocol_eq_ok_iff {cell : List Char} {p : Protocol} :
    readProtocol cell = .ok p ↔ Protocol.read cell = .ok p := by
  rw [readProtocol]
  cases Protocol.read cell <;> simp

/-- Five cells tell what follows the features of a row. -/
structure TellsTail (previous chosen throughput training inference : List Char) (row : TrainingRow) :
    Prop where
  previous : Protocol.read previous = .ok row.previous
  chosen : Protocol.read chosen = .ok row.chosen
  throughput : readFloat throughput = .ok row.throughput
  training : readFloat training = .ok row.cost.training
  inference : readFloat inference = .ok row.cost.inference

/-- A line tells a row: each feature has its cell, and five cells follow for the rest. -/
def Tells (line : List Char) (row : TrainingRow) : Prop :=
  ∃ features previous chosen throughput training inference,
    trimmedCells line = features ++ [previous, chosen, throughput, training, inference] ∧
    List.Forall₂ (fun cell x => readFloat cell = .ok x) features row.features ∧
    TellsTail previous chosen throughput training inference row

theorem ofTail_eq_ok_iff {xs : Features} {previous chosen throughput training inference : List Char}
    {row : TrainingRow} :
    ofTail xs [previous, chosen, throughput, training, inference] = .ok row ↔
      row.features = xs ∧ TellsTail previous chosen throughput training inference row := by
  obtain ⟨features, p, c, t, training', inference'⟩ := row
  simp only [ofTail, bind_eq_ok_iff, readProtocol_eq_ok_iff, readNumber_eq_ok_iff, pure, Except.pure,
    Except.ok.injEq, TrainingRow.mk.injEq, Cost.mk.injEq]
  constructor
  · rintro ⟨_, h1, _, h2, _, h3, _, h4, _, h5, rfl, rfl, rfl, rfl, rfl, rfl⟩
    exact ⟨rfl, h1, h2, h3, h4, h5⟩
  · rintro ⟨rfl, h1, h2, h3, h4, h5⟩
    exact ⟨_, h1, _, h2, _, h3, _, h4, _, h5, rfl, rfl, rfl, rfl, rfl, rfl⟩

/-- A line with too few cells tells no row; any other has five behind those of the features. -/
theorem exists_tail {cells : List (List Char)} (h : ¬ cells.length < tailCells) :
    ∃ previous chosen throughput training inference,
      cells.drop (cells.length - tailCells) = [previous, chosen, throughput, training, inference] := by
  have hlength : (cells.drop (cells.length - tailCells)).length = 5 := by
    rw [List.length_drop]
    have : tailCells = 5 := rfl
    omega
  match cells.drop (cells.length - tailCells), hlength with
  | [previous, chosen, throughput, training, inference], _ => exact ⟨_, _, _, _, _, rfl⟩

/-- A line is read as the row that it tells, and as none if it tells none. -/
theorem parse_eq_ok_iff {line : List Char} {row : TrainingRow} :
    parse line = .ok row ↔ Tells line row := by
  rw [parse, trimmedCells_trim, Tells]
  generalize trimmedCells line = cells
  by_cases hshort : cells.length < tailCells
  · rw [if_pos hshort]
    constructor
    · intro h
      cases h
    · rintro ⟨features, _, _, _, _, _, rfl, -, -⟩
      rw [List.length_append] at hshort
      exact absurd hshort (Nat.not_lt_of_le (Nat.le_add_left 5 _))
  · obtain ⟨previous, chosen, throughput, training, inference, htail⟩ := exists_tail hshort
    have hcells := List.take_append_drop (cells.length - tailCells) cells
    rw [if_neg hshort, bind_eq_ok_iff]
    rw [htail] at hcells ⊢
    constructor
    · rintro ⟨xs, hxs, h⟩
      obtain ⟨rfl, hrow⟩ := ofTail_eq_ok_iff.mp h
      refine ⟨_, _, _, _, _, _, hcells.symm, ?_, hrow⟩
      exact (mapM_eq_ok_iff.mp hxs).imp fun cell x => readNumber_eq_ok_iff.mp
    · rintro ⟨features, _, _, _, _, _, hsplit, hfeatures, hrow⟩
      -- the two ways of cutting off five cells are one
      obtain ⟨hfront, hback⟩ := List.append_inj' (hcells.trans hsplit) rfl
      cases hback
      rw [hfront]
      refine ⟨_, mapM_eq_ok_iff.mpr ?_, ofTail_eq_ok_iff.mpr ⟨rfl, hrow⟩⟩
      exact hfeatures.imp fun cell x => readNumber_eq_ok_iff.mpr

end TrainingRow

end AdaptiveConsensus
