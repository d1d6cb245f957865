import AdaptiveConsensus.Proofs.Decimal.Order
import AdaptiveConsensus.Strategy.Selection

/-!
# Which candidate is selected

The best score is a score that no other one exceeds; only where no score exceeds the lowest one it is
the lowest one itself. What is drawn from are the positions that tie with it.

- `bestScore_spec`: the best score is a number, no score is larger, and it is the lowest one or one of
  the scores.
- `mem_tiedPositions`: the positions drawn from.
- `selectBest_highest`: where some candidate has the highest score, one that has it is selected.
- `selectBest_ne_lowest`: where some candidate has more than the lowest score, one that has not the
  lowest is selected.
-/

namespace AdaptiveConsensus

open AdaptiveConsensus.Random Decimal

/-! ## The two ends of the scale -/

theorem unpack_highest : highest.toModel.unpack = .infinity .positive := rfl

theorem unpack_lowest : lowest.toModel.unpack = .infinity .negative := rfl

theorem isNaN_lowest : lowest.isNaN = false := rfl

theorem isNaN_highest : highest.isNaN = false := rfl

/-- Nothing else has the highest place. -/
theorem eq_highest_of_not_lt {x : Float} (hx : x.isNaN = false) (h : ¬ x < highest) : x = highest := by
  apply eq_of_unpack
  rw [lt_iff_place, unpack_highest] at h
  have hplace : ¬ place x.toModel.unpack < place (.infinity .positive) :=
    fun hlt => h ⟨hx, isNaN_highest, hlt⟩
  rw [unpack_highest]
  change x.toModel.unpack.isNaN = false at hx
  revert hx hplace
  rcases x.toModel.unpack with (_ | _) | _ | _ | ⟨_ | _, m, e, h⟩ <;>
    simp [place, Prod.Lex.lt_iff, Float.Model.UnpackedFloat.isNaN]

/-- Every number but the lowest is above it. -/
theorem lowest_lt_iff {x : Float} : lowest < x ↔ x.isNaN = false ∧ x ≠ lowest := by
  constructor
  · rintro h
    have hplaces := lt_iff_place.mp h
    refine ⟨hplaces.2.1, ?_⟩
    rintro rfl
    exact lt_irrefl _ hplaces.2.2
  · rintro ⟨hx, hne⟩
    refine lt_iff_place.mpr ⟨isNaN_lowest, hx, ?_⟩
    have hunpack : x.toModel.unpack ≠ .infinity .negative := fun h => hne (eq_of_unpack h)
    rw [unpack_lowest]
    change x.toModel.unpack.isNaN = false at hx
    revert hx hunpack
    rcases x.toModel.unpack with (_ | _) | _ | _ | ⟨_ | _, m, e, h⟩ <;>
      simp [place, Prod.Lex.lt_iff, Float.Model.UnpackedFloat.isNaN]

/-- A number equals itself. -/
theorem beq_self {x : Float} (hx : x.isNaN = false) : (x == x) = true :=
  beq_iff_place.mpr ⟨hx, hx, rfl⟩

theorem not_lt_of_beq {x y : Float} (h : (x == y) = true) : ¬ x < y := by
  rw [beq_iff_place] at h
  rw [lt_iff_place]
  rintro ⟨-, -, hlt⟩
  exact ne_of_lt hlt h.2.2

/-! ## The best score -/

theorem isNaN_larger {a b : Float} (ha : a.isNaN = false) : (larger a b).isNaN = false := by
  unfold larger
  rw [ha, if_neg Bool.false_ne_true]
  split
  · exact ha
  · next hb =>
    split
    · exact Bool.eq_false_iff.mpr hb
    · exact ha

/-- The larger of two is no smaller than either. -/
theorem not_larger_lt {a b : Float} (ha : a.isNaN = false) :
    ¬ larger a b < a ∧ ¬ larger a b < b := by
  unfold larger
  rw [ha]
  by_cases hb : b.isNaN = true
  · rw [if_pos hb]
    refine ⟨?_, ?_⟩ <;> rw [lt_iff_place]
    · exact fun h => lt_irrefl _ h.2.2
    · rintro ⟨-, hb', -⟩
      rw [hb] at hb'
      cases hb'
  · rw [if_neg hb, if_neg Bool.false_ne_true]
    split
    · next hlt =>
      rw [lt_iff_place] at *
      exact ⟨fun h => lt_asymm hlt.2.2 h.2.2, lt_iff_place.not.mpr fun h => lt_irrefl _ h.2.2⟩
    · next hnot =>
      refine ⟨?_, hnot⟩
      rw [lt_iff_place]
      exact fun h => lt_irrefl _ h.2.2

theorem larger_eq (a b : Float) : larger a b = a ∨ larger a b = b := by
  unfold larger
  grind

/-- The largest of a number and some scores: a number, no smaller than any of them, and one of them. -/
theorem foldl_larger {start : Float} (hstart : start.isNaN = false) (scores : List Float) :
    (scores.foldl larger start).isNaN = false ∧
      (∀ x ∈ start :: scores, ¬ scores.foldl larger start < x) ∧
      scores.foldl larger start ∈ start :: scores := by
  induction scores generalizing start with
  | nil =>
    refine ⟨hstart, ?_, List.mem_singleton_self start⟩
    rintro x hx
    rw [List.mem_singleton.mp hx]
    exact not_lt_of_beq (beq_self hstart)
  | cons y rest ih =>
    obtain ⟨hnum, habove, hmem⟩ := ih (isNaN_larger (b := y) hstart)
    have hlarger := habove _ (List.mem_cons_self ..)
    refine ⟨hnum, ?_, ?_⟩
    · -- the new score and the start are no larger than the larger of the two
      rintro x hx
      rcases List.mem_cons.mp hx with rfl | hx
      · exact not_lt_trans (isNaN_larger hstart) hlarger (not_larger_lt hstart).1
      · rcases List.mem_cons.mp hx with rfl | hx
        · exact not_lt_trans (isNaN_larger hstart) hlarger (not_larger_lt hstart).2
        · exact habove x (List.mem_cons_of_mem _ hx)
    · rw [List.foldl_cons]
      rcases List.mem_cons.mp hmem with heq | hrest
      · rw [heq]
        rcases larger_eq start y with h | h <;> rw [h] <;> simp
      · exact List.mem_cons_of_mem _ (List.mem_cons_of_mem _ hrest)

/-- The best score is a number that no score exceeds; it is one of the scores, or the lowest. -/
theorem bestScore_spec (scores : List Float) :
    (bestScore scores).isNaN = false ∧ (∀ x ∈ scores, ¬ bestScore scores < x) ∧
      (bestScore scores = lowest ∨ bestScore scores ∈ scores) := by
  obtain ⟨hnum, habove, hmem⟩ := foldl_larger isNaN_lowest scores
  exact ⟨hnum, fun x hx => habove x (List.mem_cons_of_mem _ hx), List.mem_cons.mp hmem⟩

theorem bestScore_highest {scores : List Float} (h : highest ∈ scores) :
    bestScore scores = highest :=
  eq_highest_of_not_lt (bestScore_spec scores).1 ((bestScore_spec scores).2.1 highest h)

theorem lowest_lt_bestScore {scores : List Float} {x : Float} (hx : x ∈ scores) (hlt : lowest < x) :
    lowest < bestScore scores := by
  obtain ⟨hnum, habove, -⟩ := bestScore_spec scores
  refine lowest_lt_iff.mpr ⟨hnum, fun heq => habove x hx ?_⟩
  rwa [heq]

/-! ## The selection -/

theorem mem_tiedPositions {tieBreak : TieBreak} {scores : List Float} {k : Nat} :
    k ∈ tiedPositions tieBreak scores ↔
      ∃ x, scores[k]? = some x ∧ tieBreak.ties x (bestScore scores) = true := by
  rw [tiedPositions, List.mem_map]
  constructor
  · rintro ⟨⟨x, i⟩, hmem, rfl⟩
    obtain ⟨hzip, hties⟩ := List.mem_filter.mp hmem
    exact ⟨x, List.mem_zipIdx_iff_getElem?.mp hzip, hties⟩
  · rintro ⟨x, hx, hties⟩
    exact ⟨(x, k), List.mem_filter.mpr ⟨List.mem_zipIdx_iff_getElem?.mpr hx, hties⟩, rfl⟩

variable {γ : Type} [Dice γ]

/-- Of several members one is picked. -/
theorem pick_mem {α : Type} {xs : List α} (h : xs ≠ []) (rng : γ) :
    ∃ x ∈ xs, (pick xs rng).1 = some x := by
  have hlen : 0 < xs.length := List.length_pos_iff.mpr h
  rw [pick, dif_pos hlen]
  exact ⟨_, List.get_mem xs _, rfl⟩

/-- If a position ties, one that ties is selected. -/
theorem selectBest_mem {tieBreak : TieBreak} {scores : List Float}
    (h : tiedPositions tieBreak scores ≠ []) (rng : γ) :
    (selectBest tieBreak scores rng).1 ∈ tiedPositions tieBreak scores := by
  obtain ⟨k, hk, hpick⟩ := pick_mem h rng
  show ((pick (tiedPositions tieBreak scores) rng).1.getD 0) ∈ _
  rw [hpick]
  exact hk

/-- Under exact ties, a score that equals the best one is selected, if the best one is a score. -/
theorem selectBest_exact {scores : List Float} (h : bestScore scores ∈ scores) (rng : γ) :
    ∃ x, scores[(selectBest .exact scores rng).1]? = some x ∧ (x == bestScore scores) = true := by
  obtain ⟨k, hk⟩ := List.mem_iff_getElem?.mp h
  have hties : k ∈ tiedPositions .exact scores :=
    mem_tiedPositions.mpr ⟨_, hk, beq_self (bestScore_spec scores).1⟩
  exact mem_tiedPositions.mp (selectBest_mem (List.ne_nil_of_mem hties) rng)

/-- Where some candidate has the highest score, one that has it is selected. -/
theorem selectBest_highest {scores : List Float} (h : highest ∈ scores) (rng : γ) :
    scores[(selectBest .exact scores rng).1]? = some highest := by
  have hbest := bestScore_highest h
  obtain ⟨x, hx, hties⟩ := selectBest_exact (by rwa [hbest]) rng
  rw [hbest] at hties
  rw [hx, eq_highest_of_not_lt (beq_iff_place.mp hties).1 (not_lt_of_beq hties)]

/-- Where some candidate has more than the lowest score, one that has not the lowest is selected. -/
theorem selectBest_ne_lowest {scores : List Float} {x : Float} (hx : x ∈ scores) (hlt : lowest < x)
    (rng : γ) : ∃ y, scores[(selectBest .exact scores rng).1]? = some y ∧ y ≠ lowest := by
  have hbest := lowest_lt_bestScore hx hlt
  have hmem : bestScore scores ∈ scores := by
    refine (bestScore_spec scores).2.2.resolve_left fun heq => ?_
    exact (lowest_lt_iff.mp hbest).2 heq
  obtain ⟨y, hy, hties⟩ := selectBest_exact hmem rng
  refine ⟨y, hy, ?_⟩
  rintro rfl
  exact not_lt_of_beq hties hbest

end AdaptiveConsensus
