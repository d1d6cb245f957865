import AdaptiveConsensus.Proofs.Decimal.Signs
import AdaptiveConsensus.Proofs.Strategy.Selection
import AdaptiveConsensus.Random.Xoshiro

/-!
# Which candidates tie, and how one is drawn

The largest score is found whatever stands beside it, and what ties with it is found by either way of
comparing: at least the scores that equal it, never what is not a number, and beside an infinite one
nothing but itself. The candidate is the entry that a uniform draw points to in the list of those that
tie, and that list has each of them once.

- `TieBreak.ties_congr`, `TieBreak.ties_of_beq`: ties do not tell equal scores apart.
- `TieBreak.eq_of_ties`, `TieBreak.isFinite_of_ties`: what ties with an infinite and with a finite score.
- `selection_of_scores`: the laws of a selection.
-/

namespace AdaptiveConsensus

open AdaptiveConsensus.Random Decimal
open Float.Model (UnpackedFloat Format)
open Float.Model.UnpackedFloat (Sign)

/-! ## Nearness -/

namespace TieBreak

variable {x y b b' : Float} {tieBreak : TieBreak}

theorem isFinite_congr (h : (b == b') = true) : b.isFinite = b'.isFinite := by
  rcases eq_or_zero_of_beq h with rfl | ⟨s, s', hb, hb'⟩
  · rfl
  · show b.toModel.unpack.isFinite = b'.toModel.unpack.isFinite
    rw [hb, hb']
    rfl

theorem isFinite_of_isNaN (h : x.isNaN = true) : x.isFinite = false := by
  change x.toModel.unpack.isNaN = true at h
  show x.toModel.unpack.isFinite = false
  revert h
  cases x.toModel.unpack <;> simp [UnpackedFloat.isNaN, UnpackedFloat.isFinite]

/-- The tolerance around a finite number is not negative. -/
theorem plusSign_tolerance (h : b.isFinite = true) :
    PlusSign ((1e-8 : Float) + 1e-5 * b.abs).toModel.unpack := by
  obtain ⟨m, e, hm, hfactor⟩ : ∃ m e hm,
      (1e-5 : Float).toModel.unpack = .finite .positive m e hm := ⟨_, _, _, rfl⟩
  obtain ⟨m', e', hm', hoffset⟩ : ∃ m e hm,
      (1e-8 : Float).toModel.unpack = .finite .positive m e hm := ⟨_, _, _, rfl⟩
  have hnumber : b.toModel.unpack.isNaN = false := by
    refine Bool.eq_false_iff.mpr fun hnan => ?_
    rw [isFinite_of_isNaN hnan] at h
    cases h
  have hproduct : PlusSign ((1e-5 : Float) * b.abs).toModel.unpack := by
    refine plusSign_unpack_pack (x := UnpackedFloat.mul Format.binary64 (1e-5 : Float).toModel.unpack
      b.abs.toModel.unpack) ?_
    rw [hfactor]
    exact PlusSign.finite_mul (plusSign_unpack_pack (PlusSign.abs hnumber))
  refine plusSign_unpack_pack (x := UnpackedFloat.add Format.binary64 (1e-8 : Float).toModel.unpack
    ((1e-5 : Float) * b.abs).toModel.unpack) (PlusSign.add ?_ hproduct)
  rw [hoffset]
  exact rfl

/-- A score that equals another one is near it. -/
theorem isClose_of_beq (h : (x == b) = true) : isClose x b = true := by
  unfold isClose
  split
  · next hfinite =>
    rw [Bool.and_eq_true] at hfinite
    exact decide_eq_true (le_of_zero (abs_sub_of_beq hfinite.2 h) (plusSign_tolerance hfinite.2))
  · exact h

theorem beq_congr (h : (b == b') = true) : (x == b) = (x == b') := by
  obtain ⟨hb, hb', hplace⟩ := beq_iff_place.mp h
  rw [Bool.eq_iff_iff, beq_iff_place, beq_iff_place, hplace, hb, hb']

theorem isClose_congr (h : (b == b') = true) : isClose x b = isClose x b' := by
  unfold isClose
  rw [isFinite_congr h, abs_sub_congr h, abs_congr h, beq_congr h]

/-! ## What ties -/

/-- A tie does not tell scores apart that are equal. -/
theorem ties_congr (h : (b == b') = true) : tieBreak.ties x b = tieBreak.ties x b' := by
  cases tieBreak with
  | exact => exact beq_congr h
  | close => exact isClose_congr h

/-- Scores that are equal tie. -/
theorem ties_of_beq (h : (x == b) = true) : tieBreak.ties x b = true := by
  cases tieBreak with
  | exact => exact h
  | close => exact isClose_of_beq h

/-- What ties is equal, or both are finite. -/
theorem beq_or_finite_of_ties (h : tieBreak.ties x b = true) :
    (x == b) = true ∨ x.isFinite = true ∧ b.isFinite = true := by
  cases tieBreak with
  | exact => exact .inl h
  | close =>
    change isClose x b = true at h
    unfold isClose at h
    split at h
    · next hfinite => exact .inr ((Bool.and_eq_true ..).mp hfinite)
    · exact .inl h

theorem isNaN_of_ties (h : tieBreak.ties x b = true) : x.isNaN = false := by
  rcases beq_or_finite_of_ties h with h | ⟨hfinite, -⟩
  · exact (beq_iff_place.mp h).1
  · refine Bool.eq_false_iff.mpr fun hnan => ?_
    rw [isFinite_of_isNaN hnan] at hfinite
    cases hfinite

/-- Beside a finite score nothing ties but what is finite. -/
theorem isFinite_of_ties (hb : b.isFinite = true) (h : tieBreak.ties x b = true) :
    x.isFinite = true := by
  rcases beq_or_finite_of_ties h with h | ⟨hfinite, -⟩
  · rw [isFinite_congr h, hb]
  · exact hfinite

/-- Nothing ties with an infinite score but itself. -/
theorem eq_of_ties (hb : b.isFinite = false) (h : tieBreak.ties x b = true) : x = b := by
  rcases beq_or_finite_of_ties h with h | ⟨-, hfinite⟩
  · refine (eq_or_zero_of_beq h).resolve_right ?_
    rintro ⟨-, s, -, hzero⟩
    change b.toModel.unpack.isFinite = false at hb
    rw [hzero] at hb
    cases hb
  · rw [hb] at hfinite
    cases hfinite

end TieBreak

/-! ## The largest score -/

/-- A largest score: a number among the scores that none of them exceeds. -/
structure IsLargest (scores : List Float) (b : Float) : Prop where
  mem : b ∈ scores
  number : b.isNaN = false
  top : ∀ x ∈ scores, ¬ b < x

section

variable {scores : List Float} {b : Float}

/-- Numbers of which none is smaller are equal. -/
theorem beq_of_not_lt {x y : Float} (hx : x.isNaN = false) (hy : y.isNaN = false) (hxy : ¬ x < y)
    (hyx : ¬ y < x) : (x == y) = true := by
  rw [lt_iff_place] at hxy hyx
  refine beq_iff_place.mpr ⟨hx, hy, le_antisymm ?_ ?_⟩
  · exact not_lt.mp fun h => hyx ⟨hy, hx, h⟩
  · exact not_lt.mp fun h => hxy ⟨hx, hy, h⟩

/-- If some score is a number, the best score is one of the scores. -/
theorem bestScore_mem (h : ∃ x ∈ scores, x.isNaN = false) : bestScore scores ∈ scores := by
  obtain ⟨-, habove, hlowest | hmem⟩ := bestScore_spec scores
  · obtain ⟨x, hx, hnumber⟩ := h
    -- no score exceeds the lowest one, so the number among them is the lowest one
    have hnot := habove x hx
    rw [hlowest, lowest_lt_iff] at hnot
    have heq : x = lowest := by
      by_contra hne
      exact hnot ⟨hnumber, hne⟩
    rwa [hlowest, ← heq]
  · exact hmem

theorem exists_isLargest (h : ∃ x ∈ scores, x.isNaN = false) : ∃ b, IsLargest scores b :=
  ⟨bestScore scores, bestScore_mem h, (bestScore_spec scores).1, (bestScore_spec scores).2.1⟩

/-- The best score equals a largest score. -/
theorem IsLargest.beq_bestScore (h : IsLargest scores b) : (bestScore scores == b) = true := by
  obtain ⟨hnumber, habove, -⟩ := bestScore_spec scores
  exact beq_of_not_lt hnumber h.number (habove b h.mem)
    (h.top _ (bestScore_mem ⟨b, h.mem, h.number⟩))

theorem tiedPositions_of_isNaN {tieBreak : TieBreak} (h : ∀ x ∈ scores, x.isNaN = true) :
    tiedPositions tieBreak scores = [] := by
  rw [List.eq_nil_iff_forall_not_mem]
  intro k hk
  obtain ⟨x, hx, hties⟩ := mem_tiedPositions.mp hk
  have hnan := h x (List.mem_of_getElem? hx)
  rw [TieBreak.isNaN_of_ties hties] at hnan
  cases hnan

theorem nodup_tiedPositions (tieBreak : TieBreak) (scores : List Float) :
    (tiedPositions tieBreak scores).Nodup :=
  (List.filter_sublist.map Prod.snd).nodup (List.nodup_zipIdx_map_snd scores)

end

/-! ## The selection -/

variable {γ : Type} [Dice γ]

/-- What is known of a selection beside a largest score `b`. -/
structure SelectionLaws (tieBreak : TieBreak) (scores : List Float) (rng : γ) (b : Float) : Prop where
  /-- What ties is what ties with `b`. -/
  tied : ∀ k, k ∈ tiedPositions tieBreak scores ↔
    ∃ x, scores[k]? = some x ∧ tieBreak.ties x b = true
  nonempty : tiedPositions tieBreak scores ≠ []
  equal : ∀ k x, scores[k]? = some x → (x == b) = true → k ∈ tiedPositions tieBreak scores
  number : ∀ k ∈ tiedPositions tieBreak scores, ∀ x, scores[k]? = some x → x.isNaN = false
  infinite : b.isFinite = false → ∀ k ∈ tiedPositions tieBreak scores, scores[k]? = some b
  finite : b.isFinite = true →
    ∀ k ∈ tiedPositions tieBreak scores, ∀ x, scores[k]? = some x → x.isFinite = true
  selected : (selectBest tieBreak scores rng).1 ∈ tiedPositions tieBreak scores
  /-- The score selected equals `b`, or is near it if that is how ties are broken. -/
  best : ∃ x, scores[(selectBest tieBreak scores rng).1]? = some x ∧
    match tieBreak with
    | .exact => (x == b) = true
    | .close => TieBreak.isClose x b = true
  /-- What is selected is what the draw points to. -/
  drawn : ∃ h : 0 < (tiedPositions tieBreak scores).length,
    let draw := Dice.choice (tiedPositions tieBreak scores).length h rng
    selectBest tieBreak scores rng = ((tiedPositions tieBreak scores).get draw.1, draw.2)
  /-- Exactly one of the values of the draw points to each position that ties. -/
  once : ∀ k ∈ tiedPositions tieBreak scores,
    ∃! i : Fin (tiedPositions tieBreak scores).length, (tiedPositions tieBreak scores).get i = k

theorem IsLargest.selectionLaws {scores : List Float} {b : Float} (h : IsLargest scores b)
    (tieBreak : TieBreak) (rng : γ) : SelectionLaws tieBreak scores rng b := by
  have htied : ∀ k, k ∈ tiedPositions tieBreak scores ↔
      ∃ x, scores[k]? = some x ∧ tieBreak.ties x b = true := by
    intro k
    rw [mem_tiedPositions]
    simp only [TieBreak.ties_congr h.beq_bestScore]
  have hequal : ∀ k x, scores[k]? = some x → (x == b) = true → k ∈ tiedPositions tieBreak scores :=
    fun k x hx heq => (htied k).mpr ⟨x, hx, TieBreak.ties_of_beq heq⟩
  have hties : ∀ k ∈ tiedPositions tieBreak scores, ∀ x, scores[k]? = some x →
      tieBreak.ties x b = true := by
    intro k hk x hx
    obtain ⟨x', hx', hties⟩ := (htied k).mp hk
    rw [hx] at hx'
    rwa [Option.some.inj hx']
  have hne : tiedPositions tieBreak scores ≠ [] := by
    obtain ⟨k, hk⟩ := List.mem_iff_getElem?.mp h.mem
    exact List.ne_nil_of_mem (hequal k b hk (beq_self h.number))
  have hselected := selectBest_mem hne rng
  refine ⟨htied, hne, hequal, fun k hk x hx => TieBreak.isNaN_of_ties (hties k hk x hx), ?_,
    fun hfinite k hk x hx => TieBreak.isFinite_of_ties hfinite (hties k hk x hx), hselected, ?_, ?_, ?_⟩
  · intro hinfinite k hk
    obtain ⟨x, hx, htie⟩ := (htied k).mp hk
    rw [hx, TieBreak.eq_of_ties hinfinite htie]
  · obtain ⟨x, hx, htie⟩ := (htied _).mp hselected
    cases tieBreak <;> exact ⟨x, hx, htie⟩
  · refine ⟨List.length_pos_iff.mpr hne, ?_⟩
    rw [selectBest, pick, dif_pos (List.length_pos_iff.mpr hne)]
    rfl
  · intro k hk
    obtain ⟨i, hi⟩ := List.mem_iff_get.mp hk
    exact ⟨i, hi, fun j hj => (nodup_tiedPositions tieBreak scores).injective_get (hj.trans hi.symm)⟩

/-- A selection lies among the candidates. Where no score is a number it is the first candidate, and
nothing is drawn. Otherwise there is a largest score, and the selection is one of the positions that
tie with it: each of these is what exactly one value of the draw selects. -/
theorem selection_of_scores (tieBreak : TieBreak) (scores : List Float) (hne : scores ≠ []) (rng : γ) :
    (selectBest tieBreak scores rng).1 < scores.length ∧
      ((∀ x ∈ scores, x.isNaN = true) → selectBest tieBreak scores rng = (0, rng)) ∧
      ((∃ x ∈ scores, x.isNaN = false) → ∃ b, IsLargest scores b) ∧
      ∀ b, IsLargest scores b → SelectionLaws tieBreak scores rng b := by
  have hnone : (∀ x ∈ scores, x.isNaN = true) → selectBest tieBreak scores rng = (0, rng) := by
    intro h
    rw [selectBest, tiedPositions_of_isNaN h]
    rfl
  refine ⟨?_, hnone, exists_isLargest, fun b h => h.selectionLaws tieBreak rng⟩
  by_cases h : ∃ x ∈ scores, x.isNaN = false
  · obtain ⟨b, hb⟩ := exists_isLargest h
    obtain ⟨x, hx, -⟩ := (hb.selectionLaws tieBreak rng).best
    exact (List.getElem?_eq_some_iff.mp hx).1
  · rw [hnone fun x hx => by simpa using fun hnumber => h ⟨x, hx, hnumber⟩]
    exact List.length_pos_iff.mpr hne

/-- The two zeros, a score a little below them, and scores that are no rivals. -/
def nearScores : List Float := [0.0 / 0.0, -1e-9, lowest, -0.0, 0.0]

theorem selection_of_nearScores :
    tiedPositions .exact nearScores = [3, 4] ∧ tiedPositions .close nearScores = [1, 3, 4] ∧
      IsLargest nearScores 0.0 ∧
      SelectionLaws .exact nearScores (Xoshiro.ofSeed 7) 0.0 ∧
      SelectionLaws .close nearScores (Xoshiro.ofSeed 7) 0.0 := by
  have hlargest : IsLargest nearScores 0.0 := ⟨List.mem_of_getElem? (i := 4) rfl, rfl, by decide +kernel⟩
  have hlaws : ∀ tieBreak, SelectionLaws tieBreak nearScores (Xoshiro.ofSeed 7) 0.0 := fun tieBreak =>
    (selection_of_scores tieBreak nearScores (by decide +kernel) (Xoshiro.ofSeed 7)).2.2.2 0.0 hlargest
  exact ⟨by decide +kernel, by decide +kernel, hlargest, hlaws .exact, hlaws .close⟩

end AdaptiveConsensus
