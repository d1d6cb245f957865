import AdaptiveConsensus.Proofs.Text.Blanks
import AdaptiveConsensus.Proofs.Text.Names
import AdaptiveConsensus.Snapshot.Parse
import Mathlib.Data.List.Forall2

/-!
# What a snapshot tells

A line of a snapshot tells a history row if under each of the nine names the cell reads as that part of
the row. The column of a name is the first one that the header gives this name. A text is a snapshot
exactly if its header has the nine names and every further line tells a row.

- `findColumn_eq_ok_iff`, `ofHeader_eq_ok_iff`: where the columns are found.
- `parseRow_eq_ok_iff`: a row is read from what stands in its columns.
- `parse_eq_ok_iff`, `exists_parse_iff`: the rows that a text tells, and when it tells any.
-/

namespace AdaptiveConsensus

open Decimal Text

namespace Snapshot

/-- The names of the columns that a snapshot needs. -/
def columnNames : List String :=
  StateVector.columns ++ TrainingRow.decisionColumns

theorem columnNames_eq : columnNames =
    ["FAST_PATH_FREQUENCY", "SLOWNESS_OF_PROPOSAL", "REQUEST_SIZE", "MESSAGE_PER_SLOT", "HAS_FAST_PATH",
      "HAS_LEADER_ROTATION", "previous_action", "action", "throughput"] := rfl

/-! ## Columns -/

/-- A column is the first one that carries a name. -/
structure FirstColumn (names : List (List Char)) (name : String) (column : Nat) : Prop where
  carries : names[column]? = some name.toList
  first : ∀ earlier < column, names[earlier]? ≠ some name.toList

theorem FirstColumn.unique {names : List (List Char)} {name : String} {column column' : Nat}
    (h : FirstColumn names name column) (h' : FirstColumn names name column') : column = column' := by
  rcases Nat.lt_trichotomy column column' with hlt | heq | hlt
  · exact absurd h.carries (h'.first column hlt)
  · exact heq
  · exact absurd h'.carries (h.first column' hlt)

theorem findColumn_eq_ok_iff {names : List (List Char)} {name : String} {column : Nat} :
    findColumn names name = .ok column ↔ FirstColumn names name column := by
  have hfind : findColumn names name = .ok column ↔
      names.findIdx? (· == name.toList) = some column := by
    rw [findColumn]
    cases names.findIdx? (· == name.toList) <;> simp
  rw [hfind, List.findIdx?_eq_some_iff_getElem]
  constructor
  · rintro ⟨hlt, hcarries, hfirst⟩
    refine ⟨?_, fun earlier hearlier => ?_⟩
    · rw [List.getElem?_eq_getElem hlt, beq_iff_eq.mp hcarries]
    · rw [List.getElem?_eq_getElem (Nat.lt_trans hearlier hlt)]
      intro h
      exact hfirst earlier hearlier (beq_iff_eq.mpr (Option.some.inj h))
  · rintro ⟨hcarries, hfirst⟩
    obtain ⟨hlt, hname⟩ := List.getElem?_eq_some_iff.mp hcarries
    refine ⟨hlt, beq_iff_eq.mpr hname, fun earlier hearlier h => ?_⟩
    apply hfirst earlier hearlier
    rw [List.getElem?_eq_getElem (Nat.lt_trans hearlier hlt), beq_iff_eq.mp h]

/-- A name is found in a header that has it, and not in any other. -/
theorem exists_firstColumn_iff {names : List (List Char)} {name : String} :
    (∃ column, FirstColumn names name column) ↔ name.toList ∈ names := by
  constructor
  · rintro ⟨column, h⟩
    exact List.mem_of_getElem? h.carries
  · intro h
    have hsome : (names.findIdx? (· == name.toList)).isSome = true := by
      rw [List.findIdx?_isSome, List.any_eq_true]
      exact ⟨name.toList, h, beq_self_eq_true _⟩
    obtain ⟨column, hcolumn⟩ := Option.isSome_iff_exists.mp hsome
    refine ⟨column, findColumn_eq_ok_iff.mp ?_⟩
    rw [findColumn, hcolumn]

/-- The columns in the order of their names. -/
def ColumnMap.toList (columns : ColumnMap) : List Nat :=
  [columns.fastPathFrequency, columns.proposalSlowness, columns.requestSize,
    columns.messagesPerSlot, columns.hasFastPath, columns.hasLeaderRotation, columns.previous,
    columns.action, columns.throughput]

/-- The columns of a header are the first ones of the nine names. -/
theorem ofHeader_eq_ok_iff {header : List Char} {columns : ColumnMap} :
    ColumnMap.ofHeader header = .ok columns ↔
      List.Forall₂ (FirstColumn (trimmedCells header)) columnNames columns.toList := by
  obtain ⟨c1, c2, c3, c4, c5, c6, c7, c8, c9⟩ := columns
  simp only [ColumnMap.ofHeader, bind_eq_ok_iff, findColumn_eq_ok_iff, pure, Except.pure,
    Except.ok.injEq, ColumnMap.mk.injEq]
  simp only [columnNames_eq, ColumnMap.toList, List.forall₂_cons, List.Forall₂.nil, and_true]
  constructor
  · rintro ⟨_, h1, _, h2, _, h3, _, h4, _, h5, _, h6, _, h7, _, h8, _, h9, rfl, rfl, rfl, rfl, rfl,
      rfl, rfl, rfl, rfl⟩
    exact ⟨h1, h2, h3, h4, h5, h6, h7, h8, h9⟩
  · rintro ⟨h1, h2, h3, h4, h5, h6, h7, h8, h9⟩
    exact ⟨_, h1, _, h2, _, h3, _, h4, _, h5, _, h6, _, h7, _, h8, _, h9, rfl, rfl, rfl, rfl, rfl,
      rfl, rfl, rfl, rfl⟩

/-- The nine columns are found if and only if the header has the nine names. -/
theorem exists_ofHeader_iff {header : List Char} :
    (∃ columns, ColumnMap.ofHeader header = .ok columns) ↔
      ∀ name ∈ columnNames, name.toList ∈ trimmedCells header := by
  constructor
  · rintro ⟨columns, h⟩ name hname
    obtain ⟨i, hi, rfl⟩ := List.getElem_of_mem hname
    have hcolumns := ofHeader_eq_ok_iff.mp h
    exact exists_firstColumn_iff.mp ⟨_, hcolumns.get hi (hcolumns.length_eq ▸ hi)⟩
  · intro h
    have hfound : ∀ name ∈ columnNames, ∃ column, FirstColumn (trimmedCells header) name column :=
      fun name hname => exists_firstColumn_iff.mpr (h name hname)
    simp only [columnNames_eq, List.forall_mem_cons] at hfound
    obtain ⟨⟨c1, h1⟩, ⟨c2, h2⟩, ⟨c3, h3⟩, ⟨c4, h4⟩, ⟨c5, h5⟩, ⟨c6, h6⟩, ⟨c7, h7⟩, ⟨c8, h8⟩,
      ⟨c9, h9⟩, -⟩ := hfound
    refine ⟨⟨c1, c2, c3, c4, c5, c6, c7, c8, c9⟩, ofHeader_eq_ok_iff.mpr ?_⟩
    exact .cons h1 (.cons h2 (.cons h3 (.cons h4 (.cons h5 (.cons h6 (.cons h7 (.cons h8
      (.cons h9 .nil))))))))

/-! ## Rows -/

theorem cellAt_eq_ok_iff {cells : List (List Char)} {column : Nat} {cell : List Char} :
    cellAt cells column = .ok cell ↔ cells[column]? = some cell := by
  rw [cellAt]
  cases cells[column]? <;> simp

variable {cells : List (List Char)} {column : Nat}

/-- What is read from the cell in a column, with the cause of a refusal. -/
def readAt {ε α : Type} (read : List Char → Except ε α) (cause : ε → CellError)
    (cells : List (List Char)) (column : Nat) : Except CellError α :=
  cellAt cells column >>= fun cell => (read cell).mapError cause

theorem readState_eq_readAt :
    readState cells column = readAt readFloat (.badState column) cells column := by
  simp only [readState, readAt]
  congr 1
  funext cell
  cases readFloat cell <;> rfl

theorem readProtocol_eq_readAt :
    readProtocol cells column = readAt Protocol.read .unknownProtocol cells column := by
  simp only [readProtocol, readAt]
  congr 1
  funext cell
  cases Protocol.read cell <;> rfl

theorem readThroughput_eq_readAt :
    readThroughput cells column = readAt readFloat .badThroughput cells column := by
  simp only [readThroughput, readAt]
  congr 1
  funext cell
  cases readFloat cell <;> rfl

theorem readAt_eq_ok_iff {ε α : Type} {read : List Char → Except ε α} {cause : ε → CellError}
    {x : α} :
    readAt read cause cells column = .ok x ↔
      ∃ cell, cells[column]? = some cell ∧ read cell = .ok x := by
  rw [readAt, bind_eq_ok_iff]
  refine exists_congr fun cell => and_congr cellAt_eq_ok_iff ?_
  cases read cell <;> simp [Except.mapError]

/-- What is read from a column is read from its cell. -/
theorem readAt_iff_of_cell {ε α : Type} {read : List Char → Except ε α} {cause : ε → CellError}
    {x : α} (cell : List Char) (h : cells[column]? = some cell) :
    readAt read cause cells column = .ok x ↔ read cell = .ok x := by
  rw [readAt_eq_ok_iff, h]
  constructor
  · rintro ⟨_, ⟨⟩, hread⟩
    exact hread
  · intro hread
    exact ⟨cell, rfl, hread⟩

/-- A cell of a line stands under a name: in the first column that the header gives the name. -/
def Under (header line : List Char) (name : String) (cell : List Char) : Prop :=
  ∃ column, FirstColumn (trimmedCells header) name column ∧ (trimmedCells line)[column]? = some cell

/-- A line tells a history row: under each of the names of the state features stands a number, under
the names of the two protocols stand protocols, whatever the letter case, and under the name of the
throughput stands a number. -/
structure Tells (header line : List Char) (row : HistoryRow) : Prop where
  state : List.Forall₂ (fun name x => ∃ cell, Under header line name cell ∧ readFloat cell = .ok x)
    StateVector.columns row.state.toList
  previous : ∃ cell, Under header line "previous_action" cell ∧
    foldCase cell = row.previous.name.toList
  action : ∃ cell, Under header line "action" cell ∧ foldCase cell = row.action.name.toList
  throughput : ∃ cell, Under header line "throughput" cell ∧ readFloat cell = .ok row.throughput

/-- What stands under a name stands in the column of the name. -/
theorem under_iff {header line : List Char} {name : String} {column : Nat}
    (h : FirstColumn (trimmedCells header) name column) {cell : List Char} :
    Under header line name cell ↔ (trimmedCells line)[column]? = some cell := by
  constructor
  · rintro ⟨column', h', hcell⟩
    rwa [h.unique h']
  · intro hcell
    exact ⟨column, h, hcell⟩

/-- The cells of a line are read as they are, since they were trimmed. -/
theorem Under.read_iff {header line cell : List Char} {name : String} (h : Under header line name cell)
    {p : Protocol} : Protocol.read cell = .ok p ↔ foldCase cell = p.name.toList := by
  obtain ⟨column, -, hcell⟩ := h
  have htrim : trim cell = cell := by
    obtain ⟨raw, -, rfl⟩ := List.mem_map.mp (List.mem_of_getElem? hcell)
    exact trim_trim raw
  rw [Protocol.read_eq_ok_iff, htrim]

/-- A row is read from the cells in its columns. -/
theorem parseRow_eq_ok_iff_read {columns : ColumnMap} {line : List Char} {row : HistoryRow} :
    columns.parseRow line = .ok row ↔
      List.Forall₂ (fun column x => readState (trimmedCells line) column = .ok x)
        (columns.toList.take StateVector.width) row.state.toList ∧
      readProtocol (trimmedCells line) columns.previous = .ok row.previous ∧
      readProtocol (trimmedCells line) columns.action = .ok row.action ∧
      readThroughput (trimmedCells line) columns.throughput = .ok row.throughput := by
  obtain ⟨⟨x1, x2, x3, x4, x5, x6⟩, previous, action, throughput⟩ := row
  simp only [ColumnMap.parseRow, bind_eq_ok_iff, pure, Except.pure, Except.ok.injEq,
    HistoryRow.mk.injEq, StateVector.mk.injEq, ColumnMap.toList, StateVector.width, List.take,
    StateVector.toList, List.forall₂_cons, List.Forall₂.nil, and_true]
  constructor
  · rintro ⟨_, h1, _, h2, _, h3, _, h4, _, h5, _, h6, _, h7, _, h8, _, h9,
      ⟨rfl, rfl, rfl, rfl, rfl, rfl⟩, rfl, rfl, rfl⟩
    exact ⟨⟨h1, h2, h3, h4, h5, h6⟩, h7, h8, h9⟩
  · rintro ⟨⟨h1, h2, h3, h4, h5, h6⟩, h7, h8, h9⟩
    exact ⟨_, h1, _, h2, _, h3, _, h4, _, h5, _, h6, _, h7, _, h8, _, h9,
      ⟨rfl, rfl, rfl, rfl, rfl, rfl⟩, rfl, rfl, rfl⟩

section

variable {header line : List Char} {name : String}

/-- What is read from the column of a name is read from what stands under the name. -/
theorem FirstColumn.readAt_iff {ε α : Type} {read : List Char → Except ε α} {cause : ε → CellError}
    {x : α} (h : FirstColumn (trimmedCells header) name column) :
    readAt read cause (trimmedCells line) column = .ok x ↔
      ∃ cell, Under header line name cell ∧ read cell = .ok x := by
  rw [readAt_eq_ok_iff]
  exact exists_congr fun cell => and_congr_left fun _ => (under_iff h).symm

theorem FirstColumn.readState_iff {x : Float} (h : FirstColumn (trimmedCells header) name column) :
    readState (trimmedCells line) column = .ok x ↔
      ∃ cell, Under header line name cell ∧ readFloat cell = .ok x := by
  rw [readState_eq_readAt, h.readAt_iff]

theorem FirstColumn.readThroughput_iff {x : Float}
    (h : FirstColumn (trimmedCells header) name column) :
    readThroughput (trimmedCells line) column = .ok x ↔
      ∃ cell, Under header line name cell ∧ readFloat cell = .ok x := by
  rw [readThroughput_eq_readAt, h.readAt_iff]

theorem FirstColumn.readProtocol_iff {p : Protocol}
    (h : FirstColumn (trimmedCells header) name column) :
    readProtocol (trimmedCells line) column = .ok p ↔
      ∃ cell, Under header line name cell ∧ foldCase cell = p.name.toList := by
  rw [readProtocol_eq_readAt, h.readAt_iff]
  exact exists_congr fun cell => and_congr_right fun hunder => hunder.read_iff

end

/-- A row is read from what stands under the names of the header. -/
theorem parseRow_eq_ok_iff {header line : List Char} {columns : ColumnMap} {row : HistoryRow}
    (h : ColumnMap.ofHeader header = .ok columns) :
    columns.parseRow line = .ok row ↔ Tells header line row := by
  have hcolumns := ofHeader_eq_ok_iff.mp h
  simp only [columnNames_eq, ColumnMap.toList, List.forall₂_cons, List.Forall₂.nil, and_true]
    at hcolumns
  obtain ⟨h1, h2, h3, h4, h5, h6, h7, h8, h9⟩ := hcolumns
  have hstate : List.Forall₂ (fun column x => readState (trimmedCells line) column = .ok x)
        (columns.toList.take StateVector.width) row.state.toList ↔
      List.Forall₂ (fun name x => ∃ cell, Under header line name cell ∧ readFloat cell = .ok x)
        StateVector.columns row.state.toList := by
    simp only [ColumnMap.toList, StateVector.width, List.take, StateVector.columns,
      StateVector.toList, List.forall₂_cons, List.Forall₂.nil, h1.readState_iff, h2.readState_iff,
      h3.readState_iff, h4.readState_iff, h5.readState_iff, h6.readState_iff]
  rw [parseRow_eq_ok_iff_read, hstate, h7.readProtocol_iff, h8.readProtocol_iff,
    h9.readThroughput_iff]
  constructor
  · rintro ⟨hstate, hprevious, haction, hthroughput⟩
    exact ⟨hstate, hprevious, haction, hthroughput⟩
  · rintro ⟨hstate, hprevious, haction, hthroughput⟩
    exact ⟨hstate, hprevious, haction, hthroughput⟩

/-! ## Texts -/

/-- The rows of lines are read if and only if each line is, in order. -/
theorem parseRows_eq_ok_iff {columns : ColumnMap} {number : Nat} {ls : List (List Char)}
    {rows : List HistoryRow} :
    parseRows columns number ls = .ok rows ↔
      List.Forall₂ (fun line row => columns.parseRow line = .ok row) ls rows := by
  induction ls generalizing number rows with
  | nil =>
    rw [parseRows, List.forall₂_nil_left_iff, Except.ok.injEq, eq_comm]
  | cons line rest ih =>
    rw [parseRows, List.forall₂_cons_left_iff]
    constructor
    · intro h
      cases hline : columns.parseRow line with
      | error cause =>
        rw [hline] at h
        cases h
      | ok row =>
        cases hrest : parseRows columns (number + 1) rest with
        | error cause =>
          rw [hline, hrest] at h
          cases h
        | ok others =>
          rw [hline, hrest] at h
          cases h
          exact ⟨row, others, rfl, ih.mp hrest, rfl⟩
    · rintro ⟨row, others, hline, hrest, rfl⟩
      rw [hline, ih.mpr hrest]

/-- The rows that a text tells: one for each line behind the header, in order. -/
theorem parse_eq_ok_iff {text : List Char} {rows : List HistoryRow} :
    parse text = .ok rows ↔ ∃ header lines, contentLines text = header :: lines ∧
      (∀ name ∈ columnNames, name.toList ∈ trimmedCells header) ∧
        List.Forall₂ (Tells header) lines rows := by
  rw [parse]
  constructor
  · intro h
    cases htext : contentLines text with
    | nil =>
      rw [htext] at h
      cases h
    | cons header lines =>
      rw [htext] at h
      dsimp only at h
      cases hheader : ColumnMap.ofHeader header with
      | error e =>
        rw [hheader] at h
        cases h
      | ok columns =>
        rw [hheader] at h
        refine ⟨header, lines, rfl, exists_ofHeader_iff.mp ⟨columns, hheader⟩, ?_⟩
        exact (parseRows_eq_ok_iff.mp h).imp fun line row => (parseRow_eq_ok_iff hheader).mp
  · rintro ⟨header, lines, htext, hnames, hrows⟩
    obtain ⟨columns, hheader⟩ := exists_ofHeader_iff.mpr hnames
    rw [htext]
    dsimp only
    rw [hheader]
    exact parseRows_eq_ok_iff.mpr (hrows.imp fun line row => (parseRow_eq_ok_iff hheader).mpr)

/-- A text is a snapshot if and only if its header has the nine names and each further line tells a
row. -/
theorem exists_parse_iff {text : List Char} :
    (∃ rows, parse text = .ok rows) ↔ ∃ header lines, contentLines text = header :: lines ∧
      (∀ name ∈ columnNames, name.toList ∈ trimmedCells header) ∧
        ∀ line ∈ lines, ∃ row, Tells header line row := by
  constructor
  · rintro ⟨rows, h⟩
    obtain ⟨header, lines, htext, hnames, hrows⟩ := parse_eq_ok_iff.mp h
    refine ⟨header, lines, htext, hnames, fun line hline => ?_⟩
    obtain ⟨i, hi, rfl⟩ := List.getElem_of_mem hline
    exact ⟨_, hrows.get hi (hrows.length_eq ▸ hi)⟩
  · rintro ⟨header, lines, htext, hnames, hlines⟩
    suffices hrows : ∃ rows, List.Forall₂ (Tells header) lines rows by
      obtain ⟨rows, hrows⟩ := hrows
      exact ⟨rows, parse_eq_ok_iff.mpr ⟨header, lines, htext, hnames, hrows⟩⟩
    clear htext
    induction lines with
    | nil => exact ⟨[], .nil⟩
    | cons line rest ih =>
      obtain ⟨⟨row, hrow⟩, hrest⟩ := List.forall_mem_cons.mp hlines
      obtain ⟨rows, hrows⟩ := ih hrest
      exact ⟨row :: rows, .cons hrow hrows⟩

end Snapshot

end AdaptiveConsensus
