import AdaptiveConsensus.Proofs.Text.Blanks
import AdaptiveConsensus.Snapshot.Parse

/-!
# Sheets

All that reading a snapshot takes from a text is its sheet: for each line that is not blank the row of
its cells, without the blanks around them. Blank lines, carriage returns before line feeds and blanks
at the edges of cells leave the sheet as it is.

- `sheet_append_newline`: a line feed parts the sheets of what stands before and behind it.
- `sheet_joinLines`, `sheet_crlf`, `sheet_pad`: what a sheet does not tell.
- `parse_of_sheet`, `parse_congr`: a text is read from its sheet.
-/

namespace AdaptiveConsensus

open Text

namespace Snapshot

/-- The rows of cells that a text shows, one for each line that is not blank. -/
def sheet (text : List Char) : List (List (List Char)) :=
  (contentLines text).map trimmedCells

/-- The rows that one line adds to a sheet. -/
def lineRows (line : List Char) : List (List (List Char)) :=
  if isBlankLine line then [] else [trimmedCells line]

variable {blanks : List Char}

/-- Blanks behind a line do not show. -/
theorem lineRows_append_blanks (h : isBlankLine blanks = true) (line : List Char) :
    lineRows (line ++ blanks) = lineRows line := by
  have hcells : trimmedCells (line ++ blanks) = trimmedCells line := by
    have hpad : trimmedCells (line ++ (blanks ++ [])) = trimmedCells (line ++ []) :=
      trimmedCells_pad h (.inr (.inl rfl))
    rwa [List.append_nil, List.append_nil] at hpad
  rw [lineRows, lineRows, isBlankLine_append, h, Bool.and_true, hcells]

theorem lineRows_dropMark (line : List Char) : lineRows (dropMark '\r' line) = lineRows line := by
  rw [dropMark]
  split
  · next hlast =>
    obtain ⟨init, rfl⟩ := List.getLast?_eq_some_iff.mp hlast
    rw [List.dropLast_concat, lineRows_append_blanks (by decide)]
  · rfl

theorem sheet_eq_flatMap (text : List Char) :
    sheet text = (splitOn '\n' text).flatMap lineRows := by
  have hrows : ∀ ls : List (List Char),
      (ls.filter fun line => !isBlankLine line).map trimmedCells = ls.flatMap lineRows := by
    intro ls
    induction ls with
    | nil => rfl
    | cons line rest ih =>
      rw [List.flatMap_cons, ← ih, lineRows, List.filter_cons]
      cases isBlankLine line <;> rfl
  rw [sheet, contentLines, hrows, lines]
  induction splitOn '\n' text with
  | nil => rfl
  | cons piece rest ih =>
    cases rest with
    | nil =>
      -- what follows the last line feed is a line unless it is empty
      cases piece <;> rfl
    | cons next rest =>
      rw [linesOfPieces, List.flatMap_cons, List.flatMap_cons, ih, lineRows_dropMark]

/-- A line feed parts the sheets of what stands before and behind it. -/
theorem sheet_append_newline (before after : List Char) :
    sheet (before ++ '\n' :: after) = sheet before ++ sheet after := by
  rw [sheet_eq_flatMap, splitOn_append_cons, List.flatMap_append, ← sheet_eq_flatMap,
    ← sheet_eq_flatMap]

/-! ## What a sheet does not tell -/

/-- Lines with line feeds between them. -/
def joinLines (ls : List (List Char)) : List Char :=
  ['\n'].intercalate ls

theorem sheet_joinLines (ls : List (List Char)) : sheet (joinLines ls) = ls.flatMap sheet := by
  induction ls with
  | nil => rfl
  | cons line rest ih =>
    cases rest with
    | nil => rw [joinLines, List.intercalate_singleton, List.flatMap_cons, List.flatMap_nil,
        List.append_nil]
    | cons next rest =>
      rw [joinLines, List.intercalate_cons_cons, List.append_assoc, List.singleton_append,
        sheet_append_newline, List.flatMap_cons, ← ih, joinLines]

theorem sheet_of_isBlankLine (h : isBlankLine blanks = true) : sheet blanks = [] := by
  rw [sheet_eq_flatMap, List.flatMap_eq_nil_iff]
  intro line hline
  rw [lineRows, if_pos]
  exact List.all_eq_true.mpr fun c hc => List.all_eq_true.mp h c (mem_of_mem_splitOn hline hc)

/-- A blank line among the lines of a text does not show. -/
theorem sheet_blankLine (h : isBlankLine blanks = true) (before after : List (List Char)) :
    sheet (joinLines (before ++ blanks :: after)) = sheet (joinLines (before ++ after)) := by
  rw [sheet_joinLines, sheet_joinLines, List.flatMap_append, List.flatMap_cons,
    sheet_of_isBlankLine h, List.nil_append, List.flatMap_append]

/-- Where cells begin: at the beginning of a text, behind a comma and behind a line feed. -/
def CellBegins (before : List Char) : Prop :=
  before = [] ∨ before.getLast? = some '\n' ∨ before.getLast? = some ','

/-- Where cells end: at the end of a text, before a comma and before a line end. -/
def CellEnds (after : List Char) : Prop :=
  after = [] ∨ after.head? = some '\n' ∨ after.head? = some ',' ∨ ['\r', '\n'] <+: after

/-- Nor do blanks that stand where a cell begins, or where one ends and no carriage return follows. -/
theorem sheet_pad_of_head (h : isBlankLine blanks = true) (hfeed : '\n' ∉ blanks)
    {before after : List Char}
    (hedge : CellBegins before ∨ (after = [] ∨ after.head? = some '\n' ∨ after.head? = some ',')) :
    sheet (before ++ (blanks ++ after)) = sheet (before ++ after) := by
  obtain ⟨pieces, last, hbefore, happend⟩ := splitOn_append '\n' before
  obtain ⟨first, others, hafter⟩ := exists_splitOn_eq_cons '\n' after
  have hcells : (last = [] ∨ last.getLast? = some ',') ∨ (first = [] ∨ first.head? = some ',') := by
    rcases hedge with (hempty | hfeed | hcomma) | (hempty | hfeed | hcomma)
    · exact .inl (.inl (last_of_ends hbefore (.inl hempty)))
    · exact .inl (.inl (last_of_ends hbefore (.inr hfeed)))
    · exact .inl (.inr (getLast?_last hbefore hcomma (by decide)))
    · exact .inr (.inl (first_of_begins hafter (.inl hempty)))
    · exact .inr (.inl (first_of_begins hafter (.inr hfeed)))
    · exact .inr (.inr (head?_first hafter hcomma (by decide)))
  have hline : lineRows (last ++ (blanks ++ first)) = lineRows (last ++ first) := by
    rw [lineRows, lineRows, trimmedCells_pad h hcells]
    simp only [isBlankLine_append, h, Bool.true_and]
  rw [sheet_eq_flatMap, sheet_eq_flatMap, happend _ _ _ (splitOn_append_of_not_mem hfeed hafter),
    happend _ _ _ hafter]
  simp only [List.flatMap_append, List.flatMap_cons, hline]

/-- A carriage return before a line feed does not show. -/
theorem sheet_crlf (before after : List Char) :
    sheet (before ++ '\r' :: '\n' :: after) = sheet (before ++ '\n' :: after) := by
  change sheet (before ++ (['\r'] ++ '\n' :: after)) = sheet (before ++ '\n' :: after)
  exact sheet_pad_of_head (by decide) (by decide) (.inr (.inr (.inl rfl)))

/-- Blanks where a cell begins or ends do not show. -/
theorem sheet_pad (h : isBlankLine blanks = true) (hfeed : '\n' ∉ blanks) {before after : List Char}
    (hedge : CellBegins before ∨ CellEnds after) :
    sheet (before ++ (blanks ++ after)) = sheet (before ++ after) := by
  rcases hedge with hbegins | hempty | hnewline | hcomma | ⟨rest, rfl⟩
  · exact sheet_pad_of_head h hfeed (.inl hbegins)
  · exact sheet_pad_of_head h hfeed (.inr (.inl hempty))
  · exact sheet_pad_of_head h hfeed (.inr (.inr (.inl hnewline)))
  · exact sheet_pad_of_head h hfeed (.inr (.inr (.inr hcomma)))
  · have hpadded := sheet_crlf (before ++ blanks) rest
    rw [List.append_assoc, List.append_assoc] at hpadded
    calc sheet (before ++ (blanks ++ (['\r', '\n'] ++ rest)))
        = sheet (before ++ (blanks ++ '\n' :: rest)) := hpadded
      _ = sheet (before ++ '\n' :: rest) := sheet_pad_of_head h hfeed (.inr (.inr (.inl rfl)))
      _ = sheet (before ++ (['\r', '\n'] ++ rest)) := (sheet_crlf before rest).symm

/-! ## Reading -/

theorem ofHeader_congr {header header' : List Char} (h : trimmedCells header = trimmedCells header') :
    ColumnMap.ofHeader header = ColumnMap.ofHeader header' := by
  rw [ColumnMap.ofHeader, ColumnMap.ofHeader, h]

theorem parseRow_congr (columns : ColumnMap) {line line' : List Char}
    (h : trimmedCells line = trimmedCells line') : columns.parseRow line = columns.parseRow line' := by
  rw [ColumnMap.parseRow, ColumnMap.parseRow, h]

theorem parseRows_congr (columns : ColumnMap) {ls ls' : List (List Char)}
    (h : ls.map trimmedCells = ls'.map trimmedCells) (number : Nat) :
    parseRows columns number ls = parseRows columns number ls' := by
  induction ls generalizing ls' number with
  | nil => rw [List.map_eq_nil_iff.mp h.symm]
  | cons line rest ih =>
    cases ls' with
    | nil => cases h
    | cons line' rest' =>
      obtain ⟨hline, hrest⟩ := List.cons.inj h
      rw [parseRows, parseRows, parseRow_congr columns hline, ih hrest]

/-- A text is read from its sheet: the header from the first row, the decisions from the others. -/
theorem parse_of_sheet {text header : List Char} {ls : List (List Char)}
    (h : sheet text = trimmedCells header :: ls.map trimmedCells) :
    parse text = ColumnMap.ofHeader header >>= fun columns => parseRows columns 1 ls := by
  rw [sheet] at h
  rw [parse]
  cases hlines : contentLines text with
  | nil => rw [hlines] at h; cases h
  | cons header' ls' =>
    rw [hlines] at h
    obtain ⟨hheader, hrest⟩ := List.cons.inj h
    dsimp only
    rw [ofHeader_congr hheader]
    cases ColumnMap.ofHeader header with
    | error e => rfl
    | ok columns => exact parseRows_congr columns hrest 1

theorem parse_of_contentLines {text header : List Char} {ls : List (List Char)}
    (h : contentLines text = header :: ls) :
    parse text = ColumnMap.ofHeader header >>= fun columns => parseRows columns 1 ls :=
  parse_of_sheet (by rw [sheet, h, List.map_cons])

/-- Texts with one sheet are read alike. -/
theorem parse_congr {text text' : List Char} (h : sheet text = sheet text') :
    parse text = parse text' := by
  cases hlines : contentLines text with
  | nil =>
    rw [sheet, sheet, hlines] at h
    rw [parse, parse, hlines, List.map_eq_nil_iff.mp h.symm]
  | cons header rest =>
    have hsheet : sheet text = trimmedCells header :: rest.map trimmedCells := by
      rw [sheet, hlines, List.map_cons]
    rw [parse_of_sheet hsheet, parse_of_sheet (h.symm.trans hsheet)]

end Snapshot

end AdaptiveConsensus
