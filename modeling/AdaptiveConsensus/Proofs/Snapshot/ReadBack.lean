import AdaptiveConsensus.Proofs.Decimal.Characters
import AdaptiveConsensus.Proofs.Decimal.Reading
import AdaptiveConsensus.Proofs.Snapshot.Cells

/-!
# Reading a log as a snapshot

The log of a run has the format of a snapshot: its header names the nine columns that a snapshot
needs, and each of its lines tells one history row, beside two costs that a snapshot does not look
at.

- `Snapshot.parseRow_logColumns`: where a log has the cells of a history row.
- `Snapshot.parse_log`: the rows of a log are read back, in order.
-/

namespace AdaptiveConsensus

open Decimal Text

/-- The row of a log that tells a history row, with costs. -/
def HistoryRow.logged (row : HistoryRow) (cost : Cost) : TrainingRow :=
  ⟨row.state.toList, row.previous, row.action, row.throughput, cost⟩

namespace TrainingRow

theorem cellText_name (p : Protocol) : CellText p.name.toList := by
  cases p <;> decide

theorem cellText_of_mem_toCells {row : TrainingRow} {cell : List Char} (h : cell ∈ row.toCells) :
    CellText cell := by
  rcases List.mem_append.mp h with h | h
  · obtain ⟨x, -, rfl⟩ := List.mem_map.mp h
    exact cellText_display64 x
  · simp only [List.mem_cons, List.not_mem_nil, or_false] at h
    rcases h with rfl | rfl | rfl | rfl | rfl
    · exact cellText_name _
    · exact cellText_name _
    · exact cellText_display64 _
    · exact cellText_fixed64 6 _
    · exact cellText_fixed64 6 _

theorem toCells_ne_nil (row : TrainingRow) : row.toCells ≠ [] :=
  List.append_ne_nil_of_right_ne_nil _ (List.cons_ne_nil _ _)

/-- The cells of a line are those that it was made of. -/
theorem trimmedCells_toLine (row : TrainingRow) : trimmedCells row.toLine = row.toCells :=
  trimmedCells_intercalate row.toCells_ne_nil
    (fun _ hcell => (cellText_of_mem_toCells hcell).not_mem_of_lt (by decide))
    (fun _ hcell => (cellText_of_mem_toCells hcell).solid)

/-- No character below the comma is in a line, so that it is one line. -/
theorem not_mem_toLine (row : TrainingRow) {c : Char} (hc : c.toNat < ','.toNat) : c ∉ row.toLine := by
  intro h
  rcases mem_intercalate h with rfl | ⟨cell, hcell, h⟩
  · exact Nat.lt_irrefl _ hc
  · exact (cellText_of_mem_toCells hcell).not_mem_of_lt (Nat.lt_trans hc (by decide)) h

/-- The cells of features are read back. -/
theorem read_features (xs : Features) :
    List.Forall₂ (fun cell x => readFloat cell = .ok x) (xs.map display64) xs :=
  List.forall₂_map_left_iff.mpr (List.forall₂_same.mpr fun x _ => readFloat_display64 x)

/-- A line shows at least the name of a protocol. -/
theorem not_isBlankLine_toLine (row : TrainingRow) : isBlankLine row.toLine = false := by
  obtain ⟨c, hc⟩ : ∃ c, c ∈ row.previous.name.toList := by
    cases row.previous <;> exact ⟨_, List.mem_cons_self⟩
  have hcell : row.previous.name.toList ∈ row.toCells := List.mem_append_right _ List.mem_cons_self
  rw [isBlankLine, List.all_eq_false]
  refine ⟨c, mem_intercalate_of_mem hcell hc, ?_⟩
  rw [(cellText_name row.previous).solid c hc]
  exact Bool.false_ne_true

end TrainingRow

namespace Snapshot

/-- The columns of a log. -/
def logColumns : ColumnMap := ⟨0, 1, 2, 3, 4, 5, 6, 7, 8⟩

/-- The header of a log names the columns of a snapshot. -/
theorem ofHeader_header : ColumnMap.ofHeader TrainingRow.header = .ok logColumns := by
  rfl

/-- In the columns of a log six features stand first, then the protocols and the throughput. -/
theorem parseRow_logColumns {line previous action throughput : List Char}
    {features rest : List (List Char)} {told : HistoryRow}
    (hlength : features.length = StateVector.width)
    (hcells : trimmedCells line = features ++ previous :: action :: throughput :: rest) :
    logColumns.parseRow line = .ok told ↔
      List.Forall₂ (fun cell x => readFloat cell = .ok x) features told.state.toList ∧
      Protocol.read previous = .ok told.previous ∧ Protocol.read action = .ok told.action ∧
      readFloat throughput = .ok told.throughput := by
  match features, hlength with
  | [c1, c2, c3, c4, c5, c6], _ =>
    rw [parseRow_eq_ok_iff_read, hcells, readProtocol_eq_readAt, readProtocol_eq_readAt,
      readThroughput_eq_readAt, readAt_iff_of_cell previous rfl,
      readAt_iff_of_cell action rfl, readAt_iff_of_cell throughput rfl]
    refine and_congr_left' ?_
    simp only [logColumns, ColumnMap.toList, StateVector.width, List.take, StateVector.toList,
      List.forall₂_cons, List.Forall₂.nil, and_true, readState_eq_readAt]
    rw [readAt_iff_of_cell c1 rfl, readAt_iff_of_cell c2 rfl,
      readAt_iff_of_cell c3 rfl, readAt_iff_of_cell c4 rfl,
      readAt_iff_of_cell c5 rfl, readAt_iff_of_cell c6 rfl]

/-- A line of a log tells the history row that it was written for. -/
theorem parseRow_toLine (row : HistoryRow) (cost : Cost) :
    logColumns.parseRow (row.logged cost).toLine = .ok row := by
  have hcells : trimmedCells (row.logged cost).toLine = row.state.toList.map display64 ++
      row.previous.name.toList :: row.action.name.toList :: display64 row.throughput :: _ :=
    TrainingRow.trimmedCells_toLine _
  rw [parseRow_logColumns rfl hcells]
  exact ⟨TrainingRow.read_features row.state.toList, Protocol.read_name _, Protocol.read_name _,
    readFloat_display64 _⟩

variable {α : Type} (row : α → HistoryRow) (cost : α → Cost)

/-- The rows of a log are read back. -/
theorem parseRows_log (xs : List α) (number : Nat) :
    parseRows logColumns number (xs.map fun x => ((row x).logged (cost x)).toLine) =
      .ok (xs.map row) := by
  induction xs generalizing number with
  | nil => rfl
  | cons x rest ih =>
    rw [List.map_cons, parseRows, parseRow_toLine, ih]
    rfl

/-- A log is read back as a snapshot: its header is found, and each row gives the history row that it
tells. -/
theorem parse_log (xs : List α) :
    parse (TrainingRow.header ++ ['\n'] ++
        xs.flatMap fun x => ((row x).logged (cost x)).toLine ++ ['\n']) = .ok (xs.map row) := by
  have hlines : contentLines (TrainingRow.header ++ ['\n'] ++
        xs.flatMap fun x => ((row x).logged (cost x)).toLine ++ ['\n']) =
      TrainingRow.header :: xs.map fun x => ((row x).logged (cost x)).toLine := by
    -- no line of the log is blank or has a line end in it
    have hshape : ∀ l ∈ TrainingRow.header :: xs.map fun x => ((row x).logged (cost x)).toLine,
        '\n' ∉ l ∧ '\r' ∉ l ∧ isBlankLine l = false := by
      intro l hl
      rcases List.mem_cons.mp hl with rfl | hl
      · decide
      · obtain ⟨x, -, rfl⟩ := List.mem_map.mp hl
        exact ⟨TrainingRow.not_mem_toLine _ (by decide), TrainingRow.not_mem_toLine _ (by decide),
          TrainingRow.not_isBlankLine_toLine _⟩
    rw [← contentLines_unlines (fun l hl => (hshape l hl).1) (fun l hl => (hshape l hl).2.1)
      (fun l hl => (hshape l hl).2.2), List.flatMap_cons, List.flatMap_map]
  rw [parse, hlines]
  dsimp only
  rw [ofHeader_header]
  exact parseRows_log row cost xs 1

end Snapshot

end AdaptiveConsensus
