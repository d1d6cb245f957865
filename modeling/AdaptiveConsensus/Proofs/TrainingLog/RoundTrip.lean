import AdaptiveConsensus.Proofs.Decimal.Places
import AdaptiveConsensus.Proofs.Snapshot.ReadBack
import AdaptiveConsensus.Proofs.TrainingLog.Cells

/-!
# Rows read back

A row of the log is read back from its line, whatever the number of its features. The features, the
protocols and the throughput are those that were written; the costs are what their six places say, and
writing them again gives the same places.

- `Cost.Restored`: costs as their text tells them.
- `TrainingRow.parse_toLine`: a line is read as the row that was written, with its costs restored.
-/

namespace AdaptiveConsensus

open Decimal Text

/-- Costs as their text tells them. -/
structure Cost.Restored (written read : Cost) : Prop where
  training : readFloat (fixed64 6 written.training) = .ok read.training
  inference : readFloat (fixed64 6 written.inference) = .ok read.inference

/-- The text of costs is read as costs that have the same text. -/
theorem Cost.exists_restored (cost : Cost) : ∃ read, Cost.Restored cost read ∧
    fixed64 6 read.training = fixed64 6 cost.training ∧
    fixed64 6 read.inference = fixed64 6 cost.inference := by
  obtain ⟨training, htraining, hagain⟩ := readFloat_fixed64 (show 6 < 400 by decide) cost.training
  obtain ⟨inference, hinference, hagain'⟩ := readFloat_fixed64 (show 6 < 400 by decide) cost.inference
  exact ⟨⟨training, inference⟩, ⟨htraining, hinference⟩, hagain, hagain'⟩

namespace TrainingRow

variable {row : TrainingRow} {read : Cost}

/-- The line of a row is read as the row with the costs that the line shows. -/
theorem tells_toLine (row : TrainingRow) (h : row.cost.Restored read) :
    Tells row.toLine { row with cost := read } :=
  ⟨row.features.map display64, _, _, _, _, _, trimmedCells_toLine row, read_features row.features,
    Protocol.read_name _, Protocol.read_name _, readFloat_display64 _, h.training, h.inference⟩

/-- The text of a row does not change when the costs are replaced by what their text tells. -/
theorem toLine_congr_cost (htraining : fixed64 6 read.training = fixed64 6 row.cost.training)
    (hinference : fixed64 6 read.inference = fixed64 6 row.cost.inference) :
    ({ row with cost := read } : TrainingRow).toLine = row.toLine := by
  rw [toLine, toLine, toCells, toCells, htraining, hinference]

/-- Whatever a row is, its line is read as this row with the costs that the line shows, and the line of
the row that was read is the same line. Rows with the same line differ in their costs at most. -/
theorem parse_toLine :
    (∀ row : TrainingRow, ∃ read, row.cost.Restored read ∧
      parse row.toLine = .ok { row with cost := read } ∧
      ({ row with cost := read } : TrainingRow).toLine = row.toLine) ∧
    ∀ row other : TrainingRow, row.toLine = other.toLine →
      row.features = other.features ∧ row.previous = other.previous ∧ row.chosen = other.chosen ∧
        row.throughput = other.throughput := by
  refine ⟨fun row => ?_, fun row other hline => ?_⟩
  · obtain ⟨read, hread, htraining, hinference⟩ := row.cost.exists_restored
    exact ⟨read, hread, parse_eq_ok_iff.mpr (tells_toLine row hread),
      toLine_congr_cost htraining hinference⟩
  · obtain ⟨read, hread, -, -⟩ := row.cost.exists_restored
    obtain ⟨read', hread', -, -⟩ := other.cost.exists_restored
    have htold := parse_eq_ok_iff.mpr (tells_toLine row hread)
    rw [hline, parse_eq_ok_iff.mpr (tells_toLine other hread')] at htold
    cases row
    cases other
    cases htold
    exact ⟨rfl, rfl, rfl, rfl⟩

/-- A row without features. -/
def bareRow (cost : Float) : TrainingRow :=
  ⟨[], .pbft, .sbft, 1, ⟨cost, cost⟩⟩

/-- Two costs too small for six places: the rows have one line, and the line is read as a row without
features. -/
theorem parse_toLine_bareRow :
    (bareRow (Float.ofBits 1)).toLine = (bareRow (Float.ofBits 2)).toLine ∧
    (bareRow (Float.ofBits 1)).throughput = (bareRow (Float.ofBits 2)).throughput ∧
    ∃ read, parse (bareRow (Float.ofBits 1)).toLine =
      .ok { bareRow (Float.ofBits 1) with cost := read } := by
  have hline : (bareRow (Float.ofBits 1)).toLine = (bareRow (Float.ofBits 2)).toLine := by
    decide +kernel
  obtain ⟨hread, hsame⟩ := parse_toLine
  obtain ⟨read, -, htold, -⟩ := hread (bareRow (Float.ofBits 1))
  obtain ⟨-, -, -, hthroughput⟩ := hsame _ _ hline
  exact ⟨hline, hthroughput, read, htold⟩

end TrainingRow

end AdaptiveConsensus
