import AdaptiveConsensus.Text.Split

/-!
# Lines and cells that were joined

Text that was put together from lines and cells comes apart into the same lines and cells, if none of
them holds a separator.

- `splitOn_intercalate`: the pieces of a joined text.
- `contentLines_unlines`: the lines of a text of ended lines.
- `trimmedCells_intercalate`: the cells of a row whose cells hold no blank.
-/

namespace AdaptiveConsensus.Text

section

variable {α : Type} {separator : α}

/-- What is in joined pieces is in one of them, or separates them. -/
theorem mem_intercalate {c : α} {pieces : List (List α)}
    (h : c ∈ [separator].intercalate pieces) : c = separator ∨ ∃ piece ∈ pieces, c ∈ piece := by
  induction pieces with
  | nil => cases h
  | cons piece rest ih =>
    cases rest with
    | nil =>
      rw [List.intercalate_singleton] at h
      exact .inr ⟨piece, List.mem_singleton_self piece, h⟩
    | cons next rest =>
      rw [List.intercalate_cons_cons, List.append_assoc] at h
      rcases List.mem_append.mp h with h | h
      · exact .inr ⟨piece, List.mem_cons_self, h⟩
      · rcases List.mem_append.mp h with h | h
        · exact .inl (List.mem_singleton.mp h)
        · rcases ih h with h | ⟨p, hp, h⟩
          · exact .inl h
          · exact .inr ⟨p, List.mem_cons_of_mem _ hp, h⟩

theorem mem_intercalate_of_mem {c : α} {pieces : List (List α)} {piece : List α}
    (hpiece : piece ∈ pieces) (hc : c ∈ piece) : c ∈ [separator].intercalate pieces := by
  induction pieces with
  | nil => cases hpiece
  | cons first rest ih =>
    cases rest with
    | nil => rwa [List.intercalate_singleton, ← List.mem_singleton.mp hpiece]
    | cons next rest =>
      rw [List.intercalate_cons_cons, List.append_assoc]
      rcases List.mem_cons.mp hpiece with rfl | hpiece
      · exact List.mem_append_left _ hc
      · exact List.mem_append_right _ (List.mem_append_right _ (ih hpiece))

variable [DecidableEq α]

theorem splitOn_of_not_mem {piece : List α} (h : separator ∉ piece) :
    splitOn separator piece = [piece] := by
  induction piece with
  | nil => rfl
  | cons c rest ih =>
    have hc : c ≠ separator := fun hsep => h (hsep ▸ List.mem_cons_self)
    rw [splitOn_cons, if_neg hc, ih fun hmem => h (List.mem_cons_of_mem c hmem)]

/-- A piece ends at the separator that follows it. -/
theorem splitOn_append_separator {piece : List α} (h : separator ∉ piece) (rest : List α) :
    splitOn separator (piece ++ separator :: rest) = piece :: splitOn separator rest := by
  induction piece with
  | nil => rw [List.nil_append, splitOn_cons, if_pos rfl]
  | cons c piece ih =>
    have hc : c ≠ separator := fun hsep => h (hsep ▸ List.mem_cons_self)
    rw [List.cons_append, splitOn_cons, if_neg hc, ih fun hmem => h (List.mem_cons_of_mem c hmem)]

theorem splitOn_intercalate {pieces : List (List α)} (hne : pieces ≠ [])
    (h : ∀ piece ∈ pieces, separator ∉ piece) :
    splitOn separator ([separator].intercalate pieces) = pieces := by
  induction pieces with
  | nil => exact (hne rfl).elim
  | cons piece rest ih =>
    obtain ⟨hpiece, hrest⟩ := List.forall_mem_cons.mp h
    cases rest with
    | nil => rw [List.intercalate_singleton, splitOn_of_not_mem hpiece]
    | cons next rest =>
      rw [List.intercalate_cons_cons, List.append_assoc, List.singleton_append,
        splitOn_append_separator hpiece, ih (List.cons_ne_nil _ _) hrest]

end

/-! ## Lines -/

/-- Ended lines come apart, but for an empty piece behind the last. -/
theorem splitOn_unlines {ls : List (List Char)} (h : ∀ l ∈ ls, '\n' ∉ l) :
    splitOn '\n' (ls.flatMap (· ++ ['\n'])) = ls ++ [[]] := by
  induction ls with
  | nil => rfl
  | cons l rest ih =>
    obtain ⟨hl, hrest⟩ := List.forall_mem_cons.mp h
    rw [List.flatMap_cons, List.append_assoc, List.singleton_append, splitOn_append_separator hl,
      ih hrest, List.cons_append]

theorem linesOfPieces_ended {ls : List (List Char)} (h : ∀ l ∈ ls, '\r' ∉ l) :
    linesOfPieces '\r' (ls ++ [[]]) = ls := by
  induction ls with
  | nil => rfl
  | cons l rest ih =>
    obtain ⟨hl, hrest⟩ := List.forall_mem_cons.mp h
    have hmark : dropMark '\r' l = l := by
      rw [dropMark, if_neg]
      intro hlast
      exact hl (List.mem_of_getLast? hlast)
    cases hrest' : rest ++ [[]] with
    | nil => exact (List.append_ne_nil_of_right_ne_nil rest (List.cons_ne_nil _ _) hrest').elim
    | cons next more =>
      rw [List.cons_append, hrest', linesOfPieces, hmark, ← hrest', ih hrest]

/-- The lines of a text of ended lines; none of them is dropped if each shows something. -/
theorem contentLines_unlines {ls : List (List Char)} (hfeed : ∀ l ∈ ls, '\n' ∉ l)
    (hreturn : ∀ l ∈ ls, '\r' ∉ l) (hshow : ∀ l ∈ ls, isBlankLine l = false) :
    contentLines (ls.flatMap (· ++ ['\n'])) = ls := by
  rw [contentLines, lines, splitOn_unlines hfeed, linesOfPieces_ended hreturn, List.filter_eq_self]
  intro l hl
  rw [hshow l hl]
  rfl

/-! ## Cells -/

/-- A text without blanks. -/
def Solid (text : List Char) : Prop :=
  ∀ c ∈ text, isBlank c = false

theorem dropWhile_of_solid {text : List Char} (h : Solid text) : text.dropWhile isBlank = text := by
  cases text with
  | nil => rfl
  | cons c rest => rw [List.dropWhile_cons_of_neg (by rw [h c List.mem_cons_self]; exact Bool.false_ne_true)]

theorem trim_of_solid {text : List Char} (h : Solid text) : trim text = text := by
  have hreverse : Solid text.reverse := fun c hc => h c (List.mem_reverse.mp hc)
  rw [trim, trimStart, dropWhile_of_solid h, trimEnd, dropWhile_of_solid hreverse, List.reverse_reverse]

theorem trimmedCells_intercalate {row : List (List Char)} (hne : row ≠ [])
    (hcomma : ∀ cell ∈ row, ',' ∉ cell) (hsolid : ∀ cell ∈ row, Solid cell) :
    trimmedCells ([','].intercalate row) = row := by
  rw [trimmedCells, cells, splitOn_intercalate hne hcomma]
  exact (List.map_congr_left fun cell hcell => trim_of_solid (hsolid cell hcell)).trans (List.map_id row)

end AdaptiveConsensus.Text
