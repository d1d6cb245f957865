import AdaptiveConsensus.Proofs.Snapshot.ReadBack
import AdaptiveConsensus.Proofs.Snapshot.Sheets
import AdaptiveConsensus.Proofs.TrainingLog.Cells

/-!
# Two readers of the log

A line of the log with six features is read in two ways: as a row of the log, by counting cells from
the end, and as a row of a snapshot, by the names that the header gives to the columns. Both find the
same decision, since the names stand in the header in the order in which the cells are counted.

- `Snapshot.parse_logText`: the header of a log and lines behind it are read line by line.
- `TrainingRow.tells_iff_of_length`: a line with eleven cells tells a row of the log if it tells a
  history row and ends with two costs.
- `TrainingRow.readers_agree`: the two readers accept the same lines, up to the costs, and agree.
-/

namespace AdaptiveConsensus

open Decimal Text

namespace Snapshot

/-- A line with more than one cell shows its cells. -/
theorem sheet_of_cells {line : List Char} (hfeed : '\n' ∉ line) (hcells : 1 < (cells line).length) :
    sheet line = [trimmedCells line] := by
  have hshow : isBlankLine line = false := by
    refine Bool.eq_false_iff.mpr fun hblank => ?_
    rw [cells, splitOn_of_not_mem (comma_not_mem_of_isBlankLine hblank)] at hcells
    exact Nat.lt_irrefl 1 hcells
  rw [sheet_eq_flatMap, splitOn_of_not_mem hfeed, List.flatMap_singleton, lineRows, hshow]
  rfl

/-- The header of a log and lines behind it are read line by line, whether or not the last line is
ended. -/
theorem parse_logText {ls : List (List Char)}
    (h : ∀ line ∈ ls, '\n' ∉ line ∧ 1 < (cells line).length) {ending : List Char}
    (hending : ending = [] ∨ ending = ['\n']) :
    parse (joinLines (TrainingRow.header :: ls) ++ ending) = parseRows logColumns 1 ls := by
  have hheader : sheet TrainingRow.header = [trimmedCells TrainingRow.header] :=
    sheet_of_cells (by decide) (by decide)
  have hlines : ls.flatMap sheet = ls.map trimmedCells := by
    induction ls with
    | nil => rfl
    | cons line rest ih =>
      obtain ⟨⟨hfeed, hcells⟩, hrest⟩ := List.forall_mem_cons.mp h
      rw [List.flatMap_cons, sheet_of_cells hfeed hcells, ih hrest, List.map_cons, List.singleton_append]
  have hended : sheet (joinLines (TrainingRow.header :: ls) ++ ending) =
      sheet (joinLines (TrainingRow.header :: ls)) := by
    rcases hending with rfl | rfl
    · rw [List.append_nil]
    · rw [sheet_append_newline]
      exact List.append_nil _
  have hsheet : sheet (joinLines (TrainingRow.header :: ls) ++ ending) =
      trimmedCells TrainingRow.header :: ls.map trimmedCells := by
    rw [hended, sheet_joinLines, List.flatMap_cons, hheader, hlines, List.singleton_append]
  rw [parse_of_sheet hsheet, ofHeader_header]
  rfl

end Snapshot

namespace TrainingRow

open Snapshot

variable {line : List Char} {row : TrainingRow}

/-- A line with eleven cells tells a row of the log if it tells a history row in the columns of a log
and ends with two costs. -/
theorem tells_iff_of_length (h : (cells line).length = 11) : Tells line row ↔
    ∃ told, row = told.logged row.cost ∧ logColumns.parseRow line = .ok told ∧
      List.Forall₂ (fun cell x => readFloat cell = .ok x) ((trimmedCells line).drop 9)
        [row.cost.training, row.cost.inference] := by
  have hall : (trimmedCells line).length = 11 := by rw [trimmedCells, List.length_map, h]
  obtain ⟨previous, chosen, throughput, training, inference, htail⟩ :=
    exists_tail (show ¬ (trimmedCells line).length < tailCells by rw [hall]; decide)
  have hcells := (List.take_append_drop ((trimmedCells line).length - tailCells)
    (trimmedCells line)).symm
  have hlength : ((trimmedCells line).take ((trimmedCells line).length - tailCells)).length =
      StateVector.width := by
    rw [List.length_take, hall]
    rfl
  rw [htail] at hcells
  generalize (trimmedCells line).take ((trimmedCells line).length - tailCells) = features at *
  have hcosts : (trimmedCells line).drop 9 = [training, inference] := by
    rw [hcells, List.drop_append, hlength, List.drop_of_length_le (by rw [hlength]; decide)]
    rfl
  rw [hcosts]
  constructor
  · rintro ⟨features', _, _, _, _, _, hsplit, hfeatures, hrow⟩
    obtain ⟨rfl, hback⟩ := List.append_inj' (hcells.symm.trans hsplit) rfl
    cases hback
    obtain ⟨state, hstate⟩ := StateVector.exists_toList (hfeatures.length_eq.symm.trans hlength)
    refine ⟨⟨state, row.previous, row.chosen, row.throughput⟩, ?_, ?_, ?_⟩
    · rw [HistoryRow.logged, hstate]
    · rw [parseRow_logColumns hlength hcells, hstate]
      exact ⟨hfeatures, hrow.previous, hrow.chosen, hrow.throughput⟩
    · exact .cons hrow.training (.cons hrow.inference .nil)
  · rintro ⟨told, hrow, htold, hread⟩
    obtain ⟨hfeatures, hprevious, hchosen, hthroughput⟩ :=
      (parseRow_logColumns hlength hcells).mp htold
    simp only [List.forall₂_cons, List.Forall₂.nil, and_true] at hread
    refine ⟨features, previous, chosen, throughput, training, inference, hcells, ?_, ?_⟩
    · rwa [hrow]
    · rw [hrow]
      exact ⟨hprevious, hchosen, hthroughput, hread.1, hread.2⟩

/-- Behind the header of a log a line is read as one history row or not at all. -/
theorem parse_headed_eq_ok_iff (hfeed : '\n' ∉ line) (h : (cells line).length = 11)
    {rows : List HistoryRow} : Snapshot.parse (header ++ '\n' :: line) = .ok rows ↔
      ∃ told, rows = [told] ∧ logColumns.parseRow line = .ok told := by
  have hline : ∀ l ∈ [line], '\n' ∉ l ∧ 1 < (cells l).length := by
    intro l hl
    rw [List.mem_singleton.mp hl, h]
    exact ⟨hfeed, by decide⟩
  have hparse := parse_logText hline (.inl rfl)
  rw [List.append_nil, joinLines, List.intercalate_cons_cons, List.intercalate_singleton,
    List.append_assoc, List.singleton_append] at hparse
  rw [hparse, parseRows_eq_ok_iff, List.forall₂_cons_left_iff]
  constructor
  · rintro ⟨told, rest, htold, hrest, rfl⟩
    rw [List.forall₂_nil_left_iff.mp hrest]
    exact ⟨told, rfl, htold⟩
  · rintro ⟨told, rfl, htold⟩
    exact ⟨told, [], htold, .nil, rfl⟩

theorem exists_costs (h : (cells line).length = 11)
    (hcosts : ∀ cell ∈ (trimmedCells line).drop 9, ∃ x, readFloat cell = .ok x) :
    ∃ training inference, List.Forall₂ (fun cell x => readFloat cell = .ok x)
      ((trimmedCells line).drop 9) [training, inference] := by
  have hlength : ((trimmedCells line).drop 9).length = 2 := by
    rw [List.length_drop, trimmedCells, List.length_map, h]
  obtain ⟨c1, c2, hcells⟩ := List.length_eq_two.mp hlength
  rw [hcells] at hcosts ⊢
  obtain ⟨training, htraining⟩ := hcosts c1 List.mem_cons_self
  obtain ⟨inference, hinference⟩ := hcosts c2 (List.mem_cons_of_mem _ List.mem_cons_self)
  exact ⟨training, inference, .cons htraining (.cons hinference .nil)⟩

/-- Lines that tell rows of the log tell, line by line, the history rows of these. -/
theorem exists_history {ls : List (List Char)} {rows : List TrainingRow}
    (hls : ∀ line ∈ ls, '\n' ∉ line ∧ (cells line).length = 11)
    (hrows : List.Forall₂ (fun line row => parse line = .ok row) ls rows) :
    ∃ history, List.Forall₂ (fun line told => logColumns.parseRow line = .ok told) ls history ∧
      List.Forall₂ (fun row told => row = HistoryRow.logged told row.cost) rows history := by
  induction hrows with
  | nil => exact ⟨[], .nil, .nil⟩
  | cons hrow _ ih =>
    obtain ⟨⟨-, hlength⟩, hrest⟩ := List.forall_mem_cons.mp hls
    obtain ⟨told, hlogged, htold, -⟩ := (tells_iff_of_length hlength).mp (parse_eq_ok_iff.mp hrow)
    obtain ⟨history, hhistory, hall⟩ := ih hrest
    exact ⟨told :: history, .cons htold hhistory, .cons hlogged hall⟩

/-- Of the lines with eleven cells, the row reader accepts those that are a snapshot behind the header
of a log and end with two costs. Where both readers accept a line, the snapshot has one row, which tells
the decision of the row of the log. Lines that the row reader accepts are, behind the header, a snapshot
with their rows in order. -/
theorem readers_agree :
    (∀ line : List Char, '\n' ∉ line → (cells line).length = 11 →
      ((∃ row, parse line = .ok row) ↔
        (∃ rows, Snapshot.parse (header ++ '\n' :: line) = .ok rows) ∧
          ∀ cell ∈ (trimmedCells line).drop 9, ∃ x, readFloat cell = .ok x) ∧
      ∀ row rows, parse line = .ok row → Snapshot.parse (header ++ '\n' :: line) = .ok rows →
        ∃ told : HistoryRow, rows = [told] ∧ row = told.logged row.cost) ∧
    ∀ (ls : List (List Char)) (rows : List TrainingRow),
      (∀ line ∈ ls, '\n' ∉ line ∧ (cells line).length = 11) →
      List.Forall₂ (fun line row => parse line = .ok row) ls rows →
      ∀ ending : List Char, ending = [] ∨ ending = ['\n'] →
      ∃ history, Snapshot.parse (joinLines (header :: ls) ++ ending) = .ok history ∧
        List.Forall₂ (fun row told => row = HistoryRow.logged told row.cost) rows history := by
  refine ⟨fun line hfeed hlength => ⟨⟨?_, ?_⟩, ?_⟩, fun ls rows hls hrows ending hending => ?_⟩
  · rintro ⟨row, hrow⟩
    obtain ⟨told, -, htold, hcosts⟩ := (tells_iff_of_length hlength).mp (parse_eq_ok_iff.mp hrow)
    refine ⟨⟨[told], (parse_headed_eq_ok_iff hfeed hlength).mpr ⟨told, rfl, htold⟩⟩, ?_⟩
    intro cell hcell
    obtain ⟨i, hi, rfl⟩ := List.getElem_of_mem hcell
    exact ⟨_, hcosts.get hi (hcosts.length_eq ▸ hi)⟩
  · rintro ⟨⟨rows, hrows⟩, hcosts⟩
    obtain ⟨told, -, htold⟩ := (parse_headed_eq_ok_iff hfeed hlength).mp hrows
    obtain ⟨training, inference, hread⟩ := exists_costs hlength hcosts
    refine ⟨told.logged ⟨training, inference⟩, parse_eq_ok_iff.mpr ?_⟩
    exact (tells_iff_of_length hlength).mpr ⟨told, rfl, htold, hread⟩
  · intro row rows hrow hrows
    obtain ⟨told, hlogged, htold, -⟩ :=
      (tells_iff_of_length hlength).mp (parse_eq_ok_iff.mp hrow)
    obtain ⟨told', rfl, htold'⟩ := (parse_headed_eq_ok_iff hfeed hlength).mp hrows
    obtain rfl := Except.ok.inj (htold.symm.trans htold')
    exact ⟨told, rfl, hlogged⟩
  · rw [parse_logText (fun line hline => ⟨(hls line hline).1, by rw [(hls line hline).2]; decide⟩)
      hending]
    obtain ⟨history, hhistory, hlogged⟩ := exists_history hls hrows
    exact ⟨history, parseRows_eq_ok_iff.mpr hhistory, hlogged⟩

/-- A line with blanks around its cells, names in mixed case and a carriage return at its end. -/
def paddedLine : List Char :=
  " 0.5 ,3,1024,7,1,-0, PBFT ,zyzzyva,812.5,1e-3, inf\r".toList

/-- Both readers accept the padded line, and it is a log of one decision. -/
theorem readers_agree_padded :
    '\n' ∉ paddedLine ∧ (cells paddedLine).length = 11 ∧
    ∃ row told, parse paddedLine = .ok row ∧
      Snapshot.parse (header ++ '\n' :: paddedLine) = .ok [told] ∧ row = told.logged row.cost ∧
      ∃ history, Snapshot.parse (joinLines [header, paddedLine, paddedLine] ++ ['\n']) = .ok history ∧
        List.Forall₂ (fun row told => row = HistoryRow.logged told row.cost) [row, row] history := by
  have hfeed : '\n' ∉ paddedLine := by decide +kernel
  have hlength : (cells paddedLine).length = 11 := by decide +kernel
  refine ⟨hfeed, hlength, ?_⟩
  have hread : (parse paddedLine).isOk = true := by decide +kernel
  obtain ⟨hline, hlines⟩ := readers_agree
  cases hrow : parse paddedLine with
  | error e =>
    rw [hrow] at hread
    cases hread
  | ok row =>
    obtain ⟨haccepts, hagree⟩ := hline paddedLine hfeed hlength
    obtain ⟨⟨rows, hrows⟩, -⟩ := haccepts.mp ⟨row, hrow⟩
    obtain ⟨told, rfl, hlogged⟩ := hagree row rows hrow hrows
    refine ⟨row, told, rfl, hrows, hlogged, ?_⟩
    exact hlines [paddedLine, paddedLine] [row, row] (List.forall_mem_cons.mpr ⟨⟨hfeed, hlength⟩,
      List.forall_mem_singleton.mpr ⟨hfeed, hlength⟩⟩) (.cons hrow (.cons hrow .nil)) ['\n'] (.inr rfl)

end TrainingRow

end AdaptiveConsensus
