import AdaptiveConsensus.Proofs.Text.Lines

/-!
# Blanks at the ends of cells

Where a text is cut does not depend on what it was put together from, and blanks at either end of a
cell are not part of it.

- `splitOn_append`: the pieces of two texts, one after the other.
- `trim_append_blanks`, `trim_blanks_append`, `trim_trim`: trimming forgets blanks at either end.
- `trimmedCells_pad`: blanks at the edge of a cell do not change the cells of a row.
- `trimmedCells_trim`: nor does trimming the row.
-/

namespace AdaptiveConsensus.Text

/-! ## Pieces of two texts -/

section

variable {α : Type} [DecidableEq α] {separator : α}

theorem exists_splitOn_eq_cons (separator : α) (text : List α) :
    ∃ first others, splitOn separator text = first :: others :=
  List.exists_cons_of_ne_nil (splitOn_ne_nil separator text)

/-- The last piece of a text goes on in the first piece of what follows; the other pieces stay. -/
theorem splitOn_append (separator : α) (a : List α) :
    ∃ pieces last, splitOn separator a = pieces ++ [last] ∧
      ∀ b first others, splitOn separator b = first :: others →
        splitOn separator (a ++ b) = pieces ++ (last ++ first) :: others := by
  induction a with
  | nil => exact ⟨[], [], rfl, fun b first others hb => hb⟩
  | cons c a ih =>
    obtain ⟨pieces, last, ha, happend⟩ := ih
    by_cases hc : c = separator
    · refine ⟨[] :: pieces, last, ?_, fun b first others hb => ?_⟩
      · rw [splitOn_cons, if_pos hc, ha, List.cons_append]
      · rw [List.cons_append, splitOn_cons, if_pos hc, happend b first others hb, List.cons_append]
    · cases pieces with
      | nil =>
        refine ⟨[], c :: last, ?_, fun b first others hb => ?_⟩
        · rw [splitOn_cons, if_neg hc, ha]
          rfl
        · rw [List.cons_append, splitOn_cons, if_neg hc, happend b first others hb]
          rfl
      | cons piece pieces =>
        refine ⟨(c :: piece) :: pieces, last, ?_, fun b first others hb => ?_⟩
        · rw [splitOn_cons, if_neg hc, ha]
          rfl
        · rw [List.cons_append, splitOn_cons, if_neg hc, happend b first others hb]
          rfl

/-- What holds no separator begins the first piece of what follows it. -/
theorem splitOn_append_of_not_mem {a b first : List α} {others : List (List α)} (ha : separator ∉ a)
    (hb : splitOn separator b = first :: others) :
    splitOn separator (a ++ b) = (a ++ first) :: others := by
  obtain ⟨pieces, last, hpieces, happend⟩ := splitOn_append separator a
  rw [show splitOn separator a = [] ++ [a] from splitOn_of_not_mem ha] at hpieces
  obtain ⟨rfl, hlast⟩ := List.append_inj' hpieces rfl
  rw [happend b first others hb, (List.cons.inj hlast).1]
  rfl

/-- What holds no separator ends the last piece of what stands before it. -/
theorem splitOn_append_of_not_mem_right {a b last : List α} {pieces : List (List α)}
    (ha : splitOn separator a = pieces ++ [last]) (hb : separator ∉ b) :
    splitOn separator (a ++ b) = pieces ++ [last ++ b] := by
  obtain ⟨pieces', last', hpieces, happend⟩ := splitOn_append separator a
  rw [ha] at hpieces
  obtain ⟨rfl, hlast⟩ := List.append_inj' hpieces rfl
  rw [happend b b [] (splitOn_of_not_mem hb), (List.cons.inj hlast).1]

/-- A separator ends the last piece of what stands before it. -/
theorem splitOn_append_cons (a b : List α) :
    splitOn separator (a ++ separator :: b) = splitOn separator a ++ splitOn separator b := by
  obtain ⟨pieces, last, ha, happend⟩ := splitOn_append separator a
  have hb : splitOn separator (separator :: b) = [] :: splitOn separator b := by
    rw [splitOn_cons, if_pos rfl]
  rw [happend _ _ _ hb, ha, List.append_nil, List.append_assoc, List.singleton_append]

section

variable {text last first : List α} {pieces others : List (List α)}

/-- The last piece of a text that ends with a separator is empty. -/
theorem last_of_ends (hpieces : splitOn separator text = pieces ++ [last])
    (h : text = [] ∨ text.getLast? = some separator) : last = [] := by
  obtain ⟨before, hbefore⟩ : ∃ before, splitOn separator text = before ++ [[]] := by
    rcases h with rfl | hlast
    · exact ⟨[], rfl⟩
    · obtain ⟨init, rfl⟩ := List.getLast?_eq_some_iff.mp hlast
      exact ⟨splitOn separator init, splitOn_append_cons init []⟩
  rw [hpieces] at hbefore
  exact (List.cons.inj (List.append_inj' hbefore rfl).2).1

/-- The first piece of a text that begins with a separator is empty. -/
theorem first_of_begins (hpieces : splitOn separator text = first :: others)
    (h : text = [] ∨ text.head? = some separator) : first = [] := by
  rcases h with rfl | hhead
  · exact (List.cons.inj hpieces).1.symm
  · obtain ⟨rest, rfl⟩ := List.head?_eq_some_iff.mp hhead
    rw [splitOn_cons, if_pos rfl] at hpieces
    exact (List.cons.inj hpieces).1.symm

/-- A text ends as its last piece does, if it does not end with a separator. -/
theorem getLast?_last {c : α} (hpieces : splitOn separator text = pieces ++ [last])
    (h : text.getLast? = some c) (hc : c ≠ separator) : last.getLast? = some c := by
  obtain ⟨init, rfl⟩ := List.getLast?_eq_some_iff.mp h
  obtain ⟨before, final, hinit, -⟩ := splitOn_append separator init
  rw [splitOn_append_of_not_mem_right hinit fun hmem => hc (List.mem_singleton.mp hmem).symm] at hpieces
  rw [← (List.cons.inj (List.append_inj' hpieces rfl).2).1, List.getLast?_concat]

/-- A text begins as its first piece does, if it does not begin with a separator. -/
theorem head?_first {c : α} (hpieces : splitOn separator text = first :: others)
    (h : text.head? = some c) (hc : c ≠ separator) : first.head? = some c := by
  obtain ⟨rest, rfl⟩ := List.head?_eq_some_iff.mp h
  obtain ⟨front, back, hrest⟩ := exists_splitOn_eq_cons separator rest
  rw [splitOn_cons, if_neg hc, hrest] at hpieces
  rw [← (List.cons.inj hpieces).1, List.head?_cons]

end

/-- What is in a piece is in the text. -/
theorem mem_of_mem_splitOn {c : α} {text piece : List α} (hpiece : piece ∈ splitOn separator text)
    (hc : c ∈ piece) : c ∈ text := by
  induction text generalizing piece with
  | nil =>
    rw [splitOn_nil, List.mem_singleton] at hpiece
    rwa [hpiece] at hc
  | cons d text ih =>
    rw [splitOn_cons] at hpiece
    by_cases hd : d = separator
    · rw [if_pos hd] at hpiece
      rcases List.mem_cons.mp hpiece with rfl | hpiece
      · cases hc
      · exact List.mem_cons_of_mem d (ih hpiece hc)
    · rw [if_neg hd] at hpiece
      obtain ⟨first, others, hfirst⟩ := exists_splitOn_eq_cons separator text
      rw [hfirst] at hpiece ih
      rcases List.mem_cons.mp hpiece with rfl | hpiece
      · rcases List.mem_cons.mp hc with rfl | hc
        · exact List.mem_cons_self
        · exact List.mem_cons_of_mem d (ih List.mem_cons_self hc)
      · exact List.mem_cons_of_mem d (ih (List.mem_cons_of_mem _ hpiece) hc)

end

/-! ## Trimming -/

variable {blanks text : List Char}

theorem trimStart_blanks_append (h : isBlankLine blanks = true) (text : List Char) :
    trimStart (blanks ++ text) = trimStart text := by
  rw [trimStart, List.dropWhile_append_of_pos (List.all_eq_true.mp h)]
  rfl

theorem trimEnd_append_blanks (h : isBlankLine blanks = true) (text : List Char) :
    trimEnd (text ++ blanks) = trimEnd text := by
  have hreverse : ∀ c ∈ blanks.reverse, isBlank c = true :=
    fun c hc => List.all_eq_true.mp h c (List.mem_reverse.mp hc)
  rw [trimEnd, List.reverse_append, List.dropWhile_append_of_pos hreverse]
  rfl

theorem trim_blanks_append (h : isBlankLine blanks = true) (text : List Char) :
    trim (blanks ++ text) = trim text := by
  rw [trim, trimStart_blanks_append h, trim]

theorem trim_append_blanks (h : isBlankLine blanks = true) (text : List Char) :
    trim (text ++ blanks) = trim text := by
  rw [trim, trimStart, List.dropWhile_append]
  split
  · next hempty =>
    rw [trim, trimStart, List.isEmpty_iff.mp hempty,
      (dropWhile_isBlank_eq_nil blanks).mpr (List.all_eq_true.mp h)]
  · exact trimEnd_append_blanks h _

theorem isBlankLine_append (a b : List Char) :
    isBlankLine (a ++ b) = (isBlankLine a && isBlankLine b) :=
  List.all_append

theorem isBlankLine_takeWhile (text : List Char) : isBlankLine (text.takeWhile isBlank) = true :=
  List.all_takeWhile

/-- A text is what trimming leaves of it, between blanks. -/
theorem exists_eq_append_trim (text : List Char) : ∃ before after, isBlankLine before = true ∧
    isBlankLine after = true ∧ text = before ++ (trim text ++ after) := by
  refine ⟨text.takeWhile isBlank, ((trimStart text).reverse.takeWhile isBlank).reverse,
    isBlankLine_takeWhile text, ?_, ?_⟩
  · rw [isBlankLine, List.all_reverse]
    exact isBlankLine_takeWhile _
  · have hend : trim text ++ ((trimStart text).reverse.takeWhile isBlank).reverse = trimStart text := by
      rw [trim, trimEnd, ← List.reverse_append, List.takeWhile_append_dropWhile, List.reverse_reverse]
    rw [hend]
    exact List.takeWhile_append_dropWhile.symm

/-- A trimmed text is trimmed. -/
theorem trim_trim (text : List Char) : trim (trim text) = trim text := by
  obtain ⟨before, after, hbefore, hafter, htext⟩ := exists_eq_append_trim text
  calc trim (trim text) = trim (before ++ (trim text ++ after)) := by
        rw [trim_blanks_append hbefore, trim_append_blanks hafter]
    _ = trim text := by rw [← htext]

/-! ## Cells -/

theorem comma_not_mem_of_isBlankLine (h : isBlankLine blanks = true) : ',' ∉ blanks :=
  fun hcomma => nomatch List.all_eq_true.mp h ',' hcomma

/-- Blanks at the edge of a cell do not change the cells of a row: they may stand where a cell begins,
which is at the beginning of the row and behind a comma, and where a cell ends, which is at the end of
the row and before a comma. -/
theorem trimmedCells_pad (h : isBlankLine blanks = true) {before after : List Char}
    (hedge : (before = [] ∨ before.getLast? = some ',') ∨ (after = [] ∨ after.head? = some ',')) :
    trimmedCells (before ++ (blanks ++ after)) = trimmedCells (before ++ after) := by
  obtain ⟨pieces, last, hbefore, happend⟩ := splitOn_append ',' before
  obtain ⟨first, others, hafter⟩ := exists_splitOn_eq_cons ',' after
  have hpadded := splitOn_append_of_not_mem (comma_not_mem_of_isBlankLine h) hafter
  -- one of the two cells that the blanks stand between is empty
  have hempty : last = [] ∨ first = [] := hedge.imp (last_of_ends hbefore) (first_of_begins hafter)
  have htrim : trim (last ++ (blanks ++ first)) = trim (last ++ first) := by
    rcases hempty with rfl | rfl
    · exact trim_blanks_append h first
    · rw [List.append_nil, List.append_nil, trim_append_blanks h]
  rw [trimmedCells, trimmedCells, cells, cells, happend _ _ _ hpadded, happend _ _ _ hafter]
  simp only [List.map_append, List.map_cons, htrim]

/-- Trimming a row does not change its cells. -/
theorem trimmedCells_trim (row : List Char) : trimmedCells (trim row) = trimmedCells row := by
  obtain ⟨before, after, hbefore, hafter, hrow⟩ := exists_eq_append_trim row
  calc trimmedCells (trim row) = trimmedCells ([] ++ (before ++ trim row)) :=
        (trimmedCells_pad hbefore (.inl (.inl rfl))).symm
    _ = trimmedCells (before ++ trim row ++ []) := by rw [List.nil_append, List.append_nil]
    _ = trimmedCells (before ++ trim row ++ (after ++ [])) :=
        (trimmedCells_pad hafter (.inr (.inl rfl))).symm
    _ = trimmedCells row := by rw [List.append_nil, List.append_assoc, ← hrow]

end AdaptiveConsensus.Text
