import AdaptiveConsensus.Proofs.Snapshot.Cells
import AdaptiveConsensus.Proofs.Snapshot.Sheets
import Mathlib.Data.List.Nodup

/-!
# The layout of a snapshot

The columns of a snapshot are found by their names. So they may stand in another order, and further
columns may stand among them: the same rows are read, and what is refused is refused for the same
reason, up to the number of the column in the wording.

- `findColumn_arranged`, `ofHeader_arranged`: the columns are found where they were put.
- `parse_arranged`: rearranging the columns does not change what is read.
- `parse_layout`: the format of a snapshot, and all that may be changed about its layout.
-/

namespace AdaptiveConsensus

open Decimal Text

section

variable {ε ε' α β : Type} (f : ε → ε')

theorem mapError_bind (x : Except ε α) (k : α → Except ε β) :
    (x >>= k).mapError f = x.mapError f >>= fun a => (k a).mapError f := by
  cases x <;> rfl

theorem mapError_mapError {ε'' : Type} (g : ε' → ε'') (x : Except ε α) :
    (x.mapError f).mapError g = x.mapError (g ∘ f) := by
  cases x <;> rfl

end

/-- A cause without the number of a column that cannot be read. -/
def CellError.unplaced : CellError → CellError
  | .badState _ cause => .badState 0 cause
  | e => e

/-- A cause without the number of a column that cannot be read. -/
def SnapshotError.unplaced : SnapshotError → SnapshotError
  | .badRow number cause => .badRow number cause.unplaced
  | e => e

namespace Snapshot

/-- An arrangement of columns: for each of the new columns the old column that it takes its cells
from, if it takes them from one. -/
abbrev Arrangement := List (Option Nat)

/-- A row has the cells of another row where an arrangement puts them. -/
def Arranges (arrangement : Arrangement) (old new : List (List Char)) : Prop :=
  List.Forall₂ (fun source cell => ∀ column ∈ source, old[column]? = some cell) arrangement new

instance (arrangement : Arrangement) (old new : List (List Char)) :
    Decidable (Arranges arrangement old new) :=
  inferInstanceAs (Decidable (List.Forall₂ _ arrangement new))

/-- An arrangement keeps the columns of a header: it has each of them once; it keeps their order,
unless their names are distinct; and no column that it adds has one of the nine names. -/
structure Arrangement.Keeps (arrangement : Arrangement) (names names' : List (List Char)) : Prop where
  complete : (arrangement.filterMap id).Perm (List.range names.length)
  distinct : names.Nodup ∨ arrangement.filterMap id = List.range names.length
  added : ∀ column : Nat, arrangement[column]? = some none →
    ∀ name ∈ columnNames, names'[column]? ≠ some name.toList

/-- A text shows the rows of another text with their cells rearranged, in an arrangement that keeps the
columns of the header. -/
structure Rearranged (arrangement : Arrangement) (text text' : List Char) : Prop where
  rows : List.Forall₂ (Arranges arrangement) (sheet text) (sheet text')
  header : ∀ names ∈ (sheet text).head?, ∀ names' ∈ (sheet text').head?,
    arrangement.Keeps names names'

/-- Where an arrangement puts a column. -/
def Arrangement.place (arrangement : Arrangement) (column : Nat) : Nat :=
  arrangement.idxOf (some column)

variable {arrangement : Arrangement} {old new names names' : List (List Char)}

/-! ## Cells -/

theorem Arranges.length_eq (h : Arranges arrangement old new) : arrangement.length = new.length :=
  List.Forall₂.length_eq h

theorem Arranges.getElem? (h : Arranges arrangement old new) {position column : Nat}
    (hposition : arrangement[position]? = some (some column)) : new[position]? = old[column]? := by
  obtain ⟨hlt, hsource⟩ := List.getElem?_eq_some_iff.mp hposition
  have hlt' : position < new.length := h.length_eq ▸ hlt
  have hcell := List.Forall₂.get h hlt hlt'
  rw [List.getElem?_eq_getElem hlt', hcell column hsource]
  rfl

theorem Arrangement.getElem?_place {column : Nat} (h : some column ∈ arrangement) :
    arrangement[arrangement.place column]? = some (some column) := by
  have hlt : arrangement.idxOf (some column) < arrangement.length := List.idxOf_lt_length_iff.mpr h
  rw [place, List.getElem?_eq_getElem hlt, List.getElem_idxOf hlt]

theorem Arrangement.Keeps.mem (h : arrangement.Keeps names names') {column : Nat}
    (hcolumn : column < names.length) : some column ∈ arrangement := by
  have hmem := h.complete.mem_iff.mpr (List.mem_range.mpr hcolumn)
  obtain ⟨source, hsource, hid⟩ := List.mem_filterMap.mp hmem
  rwa [← show source = some column from hid]

/-- A row with its cells rearranged has the cell of a column where the column was put. -/
theorem Arranges.exists_cell (h : Arranges arrangement old new)
    (hkeeps : arrangement.Keeps names names') {column : Nat} (hcolumn : column < names.length) :
    ∃ cell, old[column]? = some cell ∧ new[arrangement.place column]? = some cell := by
  have hplace := Arrangement.getElem?_place (hkeeps.mem hcolumn)
  obtain ⟨hlt, -⟩ := List.getElem?_eq_some_iff.mp hplace
  have hnew := List.getElem?_eq_getElem (l := new) (h.length_eq ▸ hlt)
  exact ⟨_, (h.getElem? hplace).symm.trans hnew, hnew⟩

/-! ## Columns -/

/-- What holds of the columns that an arrangement has, pair by pair, holds of two of them that it puts
one before the other. -/
theorem Arrangement.rel_of_lt {R : Nat → Nat → Prop} (h : (arrangement.filterMap id).Pairwise R)
    {position position' column column' : Nat}
    (hposition : arrangement[position]? = some (some column))
    (hposition' : arrangement[position']? = some (some column')) (hlt : position < position') :
    R column column' := by
  obtain ⟨hbound, hsource⟩ := List.getElem?_eq_some_iff.mp hposition
  obtain ⟨hbound', hsource'⟩ := List.getElem?_eq_some_iff.mp hposition'
  have hpairs := List.pairwise_iff_getElem.mp (List.pairwise_filterMap.mp h)
  exact hpairs position position' hbound hbound' hlt column hsource column' hsource'

/-- A column that has one of the nine names had it before. -/
theorem Arranges.exists_source (h : Arranges arrangement names names')
    (hkeeps : arrangement.Keeps names names') {name : String} (hname : name ∈ columnNames)
    {position : Nat} (hposition : names'[position]? = some name.toList) :
    ∃ column, arrangement[position]? = some (some column) ∧ names[column]? = some name.toList := by
  obtain ⟨hlt, -⟩ := List.getElem?_eq_some_iff.mp hposition
  cases hsource : arrangement[position]? with
  | none =>
    rw [List.getElem?_eq_none_iff, h.length_eq] at hsource
    omega
  | some source =>
    cases source with
    | none => exact absurd hposition (hkeeps.added position hsource name hname)
    | some column => exact ⟨column, rfl, (h.getElem? hsource).symm.trans hposition⟩

/-- The first column of a name is the first one of this name where it was put. -/
theorem FirstColumn.arranged (h : Arranges arrangement names names')
    (hkeeps : arrangement.Keeps names names') {name : String} (hname : name ∈ columnNames)
    {column : Nat} (hcolumn : FirstColumn names name column) :
    FirstColumn names' name (arrangement.place column) := by
  obtain ⟨hcarries, hfirst⟩ := hcolumn
  obtain ⟨hlt, -⟩ := List.getElem?_eq_some_iff.mp hcarries
  have hplace := Arrangement.getElem?_place (hkeeps.mem hlt)
  refine ⟨(h.getElem? hplace).trans hcarries, fun earlier hearlier hagain => ?_⟩
  obtain ⟨other, hsource, hother⟩ := h.exists_source hkeeps hname hagain
  rcases hkeeps.distinct with hnodup | hordered
  · have honce := hkeeps.complete.nodup_iff.mpr List.nodup_range
    obtain ⟨hbound, -⟩ := List.getElem?_eq_some_iff.mp hother
    exact Arrangement.rel_of_lt honce hsource hplace hearlier
      ((List.getElem?_inj hbound hnodup).mp (hother.trans hcarries.symm))
  · have hsorted : (arrangement.filterMap id).Pairwise (· < ·) := hordered ▸ List.pairwise_lt_range
    exact hfirst other (Arrangement.rel_of_lt hsorted hsource hplace hearlier) hother

theorem findColumn_eq_error {names : List (List Char)} {name : String} (h : name.toList ∉ names) :
    findColumn names name = .error (.missingColumn name) := by
  have hnone : names.findIdx? (· == name.toList) = none := by
    rw [List.findIdx?_eq_none_iff]
    intro cell hcell
    exact beq_eq_false_iff_ne.mpr fun heq => h (heq ▸ hcell)
  rw [findColumn, hnone]

/-- A column is found where it was put. -/
theorem findColumn_arranged (h : Arranges arrangement names names')
    (hkeeps : arrangement.Keeps names names') {name : String} (hname : name ∈ columnNames) :
    findColumn names' name = (findColumn names name).map arrangement.place := by
  by_cases hmem : name.toList ∈ names
  · obtain ⟨column, hcolumn⟩ := exists_firstColumn_iff.mpr hmem
    rw [findColumn_eq_ok_iff.mpr hcolumn,
      findColumn_eq_ok_iff.mpr (hcolumn.arranged h hkeeps hname)]
    rfl
  · have hmem' : name.toList ∉ names' := by
      intro hmem'
      obtain ⟨position, hposition⟩ := List.mem_iff_getElem?.mp hmem'
      obtain ⟨column, -, hcolumn⟩ := h.exists_source hkeeps hname hposition
      exact hmem (List.mem_of_getElem? hcolumn)
    rw [findColumn_eq_error hmem, findColumn_eq_error hmem']
    rfl

/-- Columns that are moved. -/
def ColumnMap.move (place : Nat → Nat) (columns : ColumnMap) : ColumnMap where
  fastPathFrequency := place columns.fastPathFrequency
  proposalSlowness := place columns.proposalSlowness
  requestSize := place columns.requestSize
  messagesPerSlot := place columns.messagesPerSlot
  hasFastPath := place columns.hasFastPath
  hasLeaderRotation := place columns.hasLeaderRotation
  previous := place columns.previous
  action := place columns.action
  throughput := place columns.throughput

/-- The columns of a header are found where they were put. -/
theorem ofHeader_arranged {header header' : List Char}
    (h : Arranges arrangement (trimmedCells header) (trimmedCells header'))
    (hkeeps : arrangement.Keeps (trimmedCells header) (trimmedCells header')) :
    ColumnMap.ofHeader header' =
      (ColumnMap.ofHeader header).map (ColumnMap.move arrangement.place) := by
  have hfind : ∀ name ∈ columnNames, findColumn (trimmedCells header') name =
      arrangement.place <$> findColumn (trimmedCells header) name :=
    fun name hname => findColumn_arranged h hkeeps hname
  simp only [columnNames_eq, List.forall_mem_cons] at hfind
  obtain ⟨h1, h2, h3, h4, h5, h6, h7, h8, h9, -⟩ := hfind
  change ColumnMap.ofHeader header' = ColumnMap.move arrangement.place <$> ColumnMap.ofHeader header
  simp only [ColumnMap.ofHeader, h1, h2, h3, h4, h5, h6, h7, h8, h9, bind_map_left, map_bind,
    map_pure, ColumnMap.move]

/-! ## Rows -/

section

variable {column column' : Nat} {cell : List Char}

theorem readState_moved (h : old[column]? = some cell) (h' : new[column']? = some cell) :
    (readState new column').mapError CellError.unplaced =
      (readState old column).mapError CellError.unplaced := by
  rw [readState_eq_readAt, readState_eq_readAt, readAt, readAt, cellAt_eq_ok_iff.mpr h,
    cellAt_eq_ok_iff.mpr h']
  dsimp only [bind, Except.bind]
  rw [mapError_mapError, mapError_mapError]
  rfl

theorem readProtocol_moved (h : old[column]? = some cell) (h' : new[column']? = some cell) :
    readProtocol new column' = readProtocol old column := by
  rw [readProtocol, readProtocol, cellAt_eq_ok_iff.mpr h, cellAt_eq_ok_iff.mpr h']

theorem readThroughput_moved (h : old[column]? = some cell) (h' : new[column']? = some cell) :
    readThroughput new column' = readThroughput old column := by
  rw [readThroughput, readThroughput, cellAt_eq_ok_iff.mpr h, cellAt_eq_ok_iff.mpr h']

end

/-- A row whose cells were moved is read from where they were put. -/
theorem parseRow_moved {place : Nat → Nat} {columns : ColumnMap} {line line' : List Char}
    (h : ∀ column ∈ columns.toList, ∃ cell, (trimmedCells line)[column]? = some cell ∧
      (trimmedCells line')[place column]? = some cell) :
    ((columns.move place).parseRow line').mapError CellError.unplaced =
      (columns.parseRow line).mapError CellError.unplaced := by
  simp only [ColumnMap.toList, List.forall_mem_cons] at h
  obtain ⟨⟨_, h1, h1'⟩, ⟨_, h2, h2'⟩, ⟨_, h3, h3'⟩, ⟨_, h4, h4'⟩, ⟨_, h5, h5'⟩, ⟨_, h6, h6'⟩,
    ⟨_, h7, h7'⟩, ⟨_, h8, h8'⟩, ⟨_, h9, h9'⟩, -⟩ := h
  simp only [ColumnMap.parseRow, ColumnMap.move, mapError_bind, readState_moved h1 h1',
    readState_moved h2 h2', readState_moved h3 h3', readState_moved h4 h4', readState_moved h5 h5',
    readState_moved h6 h6', readProtocol_moved h7 h7', readProtocol_moved h8 h8',
    readThroughput_moved h9 h9']

theorem parseRows_cons (columns : ColumnMap) (number : Nat) (line : List Char)
    (rest : List (List Char)) :
    parseRows columns number (line :: rest) =
      (columns.parseRow line).mapError (.badRow number) >>= fun row =>
        parseRows columns (number + 1) rest >>= fun rows => .ok (row :: rows) := by
  rw [parseRows]
  cases columns.parseRow line with
  | error cause => rfl
  | ok row => cases parseRows columns (number + 1) rest <;> rfl

/-- Rows are read alike by two maps of columns that read each of them alike. -/
theorem parseRows_unplaced {columns columns' : ColumnMap} {ls ls' : List (List Char)}
    (h : List.Forall₂ (fun line line' => (columns'.parseRow line').mapError CellError.unplaced =
      (columns.parseRow line).mapError CellError.unplaced) ls ls') (number : Nat) :
    (parseRows columns' number ls').mapError SnapshotError.unplaced =
      (parseRows columns number ls).mapError SnapshotError.unplaced := by
  induction h generalizing number with
  | nil => rfl
  | cons hline _ ih =>
    have hnumbered : SnapshotError.unplaced ∘ SnapshotError.badRow number =
      SnapshotError.badRow number ∘ CellError.unplaced := rfl
    rw [parseRows_cons, parseRows_cons, mapError_bind, mapError_bind, mapError_mapError,
      mapError_mapError, hnumbered, ← mapError_mapError, ← mapError_mapError, hline]
    simp only [mapError_bind, ih]

/-- Rearranging the columns does not change what is read. -/
theorem parse_arranged {text text' : List Char} (h : Rearranged arrangement text text') :
    (parse text').mapError SnapshotError.unplaced = (parse text).mapError SnapshotError.unplaced := by
  obtain ⟨hrows, hheader⟩ := h
  rw [sheet, sheet, List.forall₂_map_left_iff, List.forall₂_map_right_iff] at hrows
  rw [sheet, sheet] at hheader
  cases hlines : contentLines text with
  | nil =>
    rw [hlines, List.forall₂_nil_left_iff] at hrows
    rw [parse, parse, hlines, hrows]
  | cons header ls =>
    rw [hlines, List.forall₂_cons_left_iff] at hrows
    obtain ⟨header', ls', hnames, hrest, hlines'⟩ := hrows
    rw [hlines, hlines'] at hheader
    have hkeeps := hheader _ rfl _ rfl
    rw [parse_of_contentLines hlines, parse_of_contentLines hlines',
      ofHeader_arranged hnames hkeeps]
    cases hcolumns : ColumnMap.ofHeader header with
    | error e => rfl
    | ok columns =>
      refine parseRows_unplaced (hrest.imp fun line line' hline => ?_) 1
      apply parseRow_moved
      intro column hcolumn
      obtain ⟨i, hi, rfl⟩ := List.getElem_of_mem hcolumn
      have hfound := ofHeader_eq_ok_iff.mp hcolumns
      obtain ⟨hlt, -⟩ := List.getElem?_eq_some_iff.mp
        (hfound.get (hfound.length_eq ▸ hi) hi).carries
      exact hline.exists_cell hkeeps hlt

/-! ## The format -/

/-- The format of a snapshot, and what may be changed about its layout. A text is accepted if and only
if it has a first line that is not blank, this header has the nine names among its cells, and each later
line that is not blank tells a row in the first columns of these names; it then gives these rows, in
order, and none if one of the lines tells no row. Nothing changes if a blank line is put among the lines
of the text, if a line feed becomes a carriage return and a line feed, or if a cell is padded with
blanks. If the columns are rearranged, and others added, the same rows are given, or the text is refused
for the same reason. -/
theorem parse_layout (text : List Char) :
    ((∃ rows, parse text = .ok rows) ↔ ∃ header lines, contentLines text = header :: lines ∧
      (∀ name ∈ columnNames, name.toList ∈ trimmedCells header) ∧
        ∀ line ∈ lines, ∃ row, Tells header line row) ∧
    (∀ rows, parse text = .ok rows ↔ ∃ header lines, contentLines text = header :: lines ∧
      (∀ name ∈ columnNames, name.toList ∈ trimmedCells header) ∧
        List.Forall₂ (Tells header) lines rows) ∧
    (∀ header lines, contentLines text = header :: lines →
      (∃ line ∈ lines, ∀ row, ¬ Tells header line row) → ∃ e, parse text = .error e) ∧
    (∀ before after blank, text = joinLines (before ++ after) → isBlankLine blank = true →
      parse (joinLines (before ++ blank :: after)) = parse text) ∧
    (∀ before after, text = before ++ '\n' :: after →
      parse (before ++ '\r' :: '\n' :: after) = parse text) ∧
    (∀ before after blanks, text = before ++ after → isBlankLine blanks = true → '\n' ∉ blanks →
      CellBegins before ∨ CellEnds after → parse (before ++ (blanks ++ after)) = parse text) ∧
    (∀ arrangement text', Rearranged arrangement text text' →
      (parse text').mapError SnapshotError.unplaced =
        (parse text).mapError SnapshotError.unplaced) := by
  refine ⟨exists_parse_iff, fun rows => parse_eq_ok_iff, ?_, ?_, ?_, ?_, ?_⟩
  · rintro header lines htext ⟨line, hline, hbad⟩
    cases hparse : parse text with
    | error e => exact ⟨e, rfl⟩
    | ok rows =>
      obtain ⟨header', lines', htext', -, hgood⟩ := exists_parse_iff.mp ⟨rows, hparse⟩
      obtain ⟨rfl, rfl⟩ := List.cons.inj (htext.symm.trans htext')
      obtain ⟨row, hrow⟩ := hgood line hline
      exact absurd hrow (hbad row)
  · rintro before after blank rfl hblank
    exact parse_congr (sheet_blankLine hblank before after)
  · rintro before after rfl
    exact parse_congr (sheet_crlf before after)
  · rintro before after blanks rfl hblanks hfeed hedge
    exact parse_congr (sheet_pad hblanks hfeed hedge)
  · intro arrangement text' h
    exact parse_arranged h

/-- A header with the nine names. -/
def plainHeader : List Char :=
  [','].intercalate (columnNames.map String.toList)

/-- A row for this header. -/
def plainRow : List Char :=
  "1,2,3,4,5,6,pbft,Sbft,7".toList

/-- A header with the nine names in another order, and one more name. -/
def mixedHeader : List Char :=
  "action,previous_action,note,FAST_PATH_FREQUENCY,SLOWNESS_OF_PROPOSAL,REQUEST_SIZE,".toList ++
    "MESSAGE_PER_SLOT,HAS_FAST_PATH,HAS_LEADER_ROTATION,throughput".toList

/-- The row for this header. -/
def mixedRow : List Char :=
  "Sbft,pbft,-,1,2,3,4,5,6,7".toList

/-- How the columns of the mixed header come from those of the plain one. -/
def mixing : Arrangement :=
  [some 7, some 6, none, some 0, some 1, some 2, some 3, some 4, some 5, some 8]

theorem rearranged_mixing :
    Rearranged mixing (plainHeader ++ '\n' :: plainRow) (mixedHeader ++ '\n' :: mixedRow) := by
  have hplain : sheet (plainHeader ++ '\n' :: plainRow) =
      [trimmedCells plainHeader, trimmedCells plainRow] := by decide +kernel
  have hmixed : sheet (mixedHeader ++ '\n' :: mixedRow) =
      [trimmedCells mixedHeader, trimmedCells mixedRow] := by decide +kernel
  constructor
  · rw [hplain, hmixed]
    exact .cons (by decide +kernel) (.cons (by decide +kernel) .nil)
  · rw [hplain, hmixed]
    rintro names ⟨⟩ names' ⟨⟩
    constructor
    · decide +kernel
    · exact .inl (by decide +kernel)
    · intro column hcolumn
      have hnote : ∀ column < mixing.length, mixing[column]? = some none → column = 2 := by decide
      obtain ⟨hlt, -⟩ := List.getElem?_eq_some_iff.mp hcolumn
      rw [hnote column hlt hcolumn]
      decide +kernel

/-- The text of the plain header and its row is a snapshot. With a blank line before the header, with a
carriage return, with a blank at its end and with its columns mixed it is read as it was. -/
theorem parse_layout_plain :
    (∃ rows, parse (plainHeader ++ '\n' :: plainRow) = .ok rows) ∧
    parse (joinLines [[' '], plainHeader, plainRow]) = parse (plainHeader ++ '\n' :: plainRow) ∧
    parse (plainHeader ++ '\r' :: '\n' :: plainRow) = parse (plainHeader ++ '\n' :: plainRow) ∧
    parse (plainHeader ++ '\n' :: plainRow ++ ([' '] ++ [])) =
      parse (plainHeader ++ '\n' :: plainRow) ∧
    (parse (mixedHeader ++ '\n' :: mixedRow)).mapError SnapshotError.unplaced =
      (parse (plainHeader ++ '\n' :: plainRow)).mapError SnapshotError.unplaced := by
  obtain ⟨-, -, -, hblank, hreturn, hpad, harranged⟩ := parse_layout (plainHeader ++ '\n' :: plainRow)
  have hread : (parse (plainHeader ++ '\n' :: plainRow)).isOk = true := by decide +kernel
  refine ⟨?_, ?_, ?_, ?_, ?_⟩
  · cases hrows : parse (plainHeader ++ '\n' :: plainRow) with
    | error e =>
      rw [hrows] at hread
      cases hread
    | ok rows => exact ⟨rows, rfl⟩
  · exact hblank [] [plainHeader, plainRow] [' '] rfl (by decide)
  · exact hreturn plainHeader plainRow rfl
  · exact hpad _ [] [' '] (List.append_nil _).symm (by decide) (by decide) (.inr (.inl rfl))
  · exact harranged mixing _ rearranged_mixing

end Snapshot

end AdaptiveConsensus
