import AdaptiveConsensus.Proofs.Experience.Chronicle
import AdaptiveConsensus.Proofs.Experience.Training
import Mathlib.Data.Set.List
import Mathlib.Probability.Distributions.Uniform

/-!
# Resamples of the recent records

A resample is made of as many draws as there are recent records, each of which points to one of them.
Positions are counted from the oldest record on, in a list that also holds the rows that wait; no draw
reaches those. Sequences of draws and of recent positions correspond one to one, so that independent
uniform draws make all of the latter equally likely.

- `Store.pairs_sampleAt`: the row and the target of a draw are those of one record.
- `Store.sample_pushPending`: rows that wait make no difference.
- `Store.bijOn_chosen`: every sequence of recent positions is pointed to by exactly one sequence of
  draws.
- `independentDraws_apply`, `Store.chosen_independentDraws`: independent uniform draws give each of them
  with the same probability.
- `Store.resample_of_operations`: the laws of a resample, after any operations and for any limit.
-/

namespace AdaptiveConsensus

open AdaptiveConsensus.Random

/-! ## Sources of draws -/

namespace Random

/-- A source of randomness whose draws are written down. A draw that is out of range is brought into it,
and the last one is followed by zeros. -/
structure Script where
  draws : List Nat

namespace Script

/-- The next draw. -/
def next (n : Nat) (hn : 0 < n) (g : Script) : Fin n × Script :=
  (⟨g.draws.headD 0 % n, Nat.mod_lt _ hn⟩, ⟨g.draws.tail⟩)

instance : Dice Script where
  choice := next
  position := next
  seed g := (0, g)

/-- The source that gives the draws of a list. -/
def ofDraws {n : Nat} (draws : List (Fin n)) : Script :=
  ⟨draws.map Fin.val⟩

theorem positions_ofDraws {n : Nat} (hn : 0 < n) (draws : List (Fin n)) :
    (positions n hn draws.length (ofDraws draws)).1 = draws := by
  induction draws with
  | nil => rfl
  | cons k rest ih =>
    have hk : (⟨k.val % n, Nat.mod_lt _ hn⟩ : Fin n) = k := Fin.ext (Nat.mod_eq_of_lt k.isLt)
    exact congrArg₂ List.cons hk ih

end Script

/-- A draw below `n` for which all values are equally likely. -/
noncomputable def uniformDraw (n : Nat) (hn : 0 < n) : PMF (Fin n) :=
  haveI : Nonempty (Fin n) := ⟨⟨0, hn⟩⟩
  PMF.uniformOfFintype (Fin n)

theorem uniformDraw_apply {n : Nat} (hn : 0 < n) (k : Fin n) :
    uniformDraw n hn k = (n : ENNReal)⁻¹ := by
  have : Nonempty (Fin n) := ⟨⟨0, hn⟩⟩
  rw [uniformDraw, PMF.uniformOfFintype_apply, Fintype.card_fin]

/-- Uniform draws below `n` that are independent of each other. -/
noncomputable def independentDraws (n : Nat) (hn : 0 < n) : Nat → PMF (List (Fin n))
  | 0 => PMF.pure []
  | count + 1 => (uniformDraw n hn).bind fun k => (independentDraws n hn count).map (k :: ·)

/-- A one-to-one function takes the probabilities along. -/
theorem map_apply_of_injective {α β : Type} {f : α → β} (hf : Function.Injective f) (p : PMF α)
    (a : α) : p.map f (f a) = p a := by
  rw [PMF.map_apply, tsum_eq_single a, if_pos rfl]
  intro b hb
  rw [if_neg fun h => hb (hf h).symm]

/-- All sequences of as many draws are equally likely. -/
theorem independentDraws_apply {n : Nat} (hn : 0 < n) (draws : List (Fin n)) :
    independentDraws n hn draws.length draws = (n : ENNReal)⁻¹ ^ draws.length := by
  induction draws with
  | nil => simp [independentDraws]
  | cons k rest ih =>
    rw [List.length_cons, independentDraws, PMF.bind_apply, tsum_eq_single k]
    · rw [map_apply_of_injective (fun _ _ => List.tail_eq_of_cons_eq), ih, uniformDraw_apply, pow_succ']
    · -- another first draw does not begin this sequence
      intro j hj
      have hother : (independentDraws n hn rest.length).map (j :: ·) (k :: rest) = 0 := by
        rw [PMF.apply_eq_zero_iff, PMF.mem_support_map_iff]
        rintro ⟨draws, -, hdraws⟩
        exact hj (List.head_eq_of_cons_eq hdraws)
      rw [hother, mul_zero]

end Random

namespace Store

/-! ## Draws and positions -/

/-- How many of the records are recent. -/
abbrev recentCount (s : Store) (cap : ReplayCap) : Nat :=
  cap.window s.count

/-- What a resample draws from a source of randomness. -/
def draws {γ : Type} [Dice γ] (s : Store) (cap : ReplayCap) (rng : γ) :
    List (Fin (s.recentCount cap)) :=
  if h : 0 < s.recentCount cap then (positions (s.recentCount cap) h (s.recentCount cap) rng).1 else []

/-- The positions of the records that draws point to. -/
def chosen (s : Store) (cap : ReplayCap) (draws : List (Fin (s.recentCount cap))) : List Nat :=
  draws.map fun k => s.windowStart cap + k.val

/-- The sequences of `window` positions among the last `window` of `count` records. -/
def recentPositions (count window : Nat) : Set (List Nat) :=
  {ks | ks.length = window ∧ ∀ k ∈ ks, count - window ≤ k ∧ k < count}

variable {s : Store} {cap : ReplayCap}

theorem length_draws {γ : Type} [Dice γ] (s : Store) (cap : ReplayCap) (rng : γ) :
    (s.draws cap rng).length = s.recentCount cap := by
  unfold draws
  split
  · exact length_positions ..
  · next h => exact (Nat.eq_zero_of_not_pos h).symm

/-- A resample is what its draws point to. -/
theorem sample_eq {γ : Type} [Dice γ] (s : Store) (cap : ReplayCap) (rng : γ) :
    (s.sample cap rng).1 = s.sampleAt cap (s.draws cap rng) := by
  unfold sample draws
  split <;> rfl

theorem draws_ofDraws {draws : List (Fin (s.recentCount cap))}
    (hlength : draws.length = s.recentCount cap) : s.draws cap (Script.ofDraws draws) = draws := by
  rw [Store.draws]
  split
  · next h =>
    have hscript := Script.positions_ofDraws h draws
    rwa [hlength] at hscript
  · next h => exact (List.eq_nil_of_length_eq_zero (hlength.trans (Nat.eq_zero_of_not_pos h))).symm

/-- The row and the target of a draw are those of the record that it points to, a recent one. -/
theorem pairs_sampleAt {draws : List (Fin (s.recentCount cap))} {j k : Nat}
    (hk : (s.chosen cap draws)[j]? = some k) : s.windowStart cap ≤ k ∧
      ∃ x y, s.labelled[k]? = some (x, y) ∧
        (s.sampleAt cap draws).x[j]? = some x ∧ (s.sampleAt cap draws).y[j]? = some y := by
  rw [chosen, List.getElem?_map, Option.map_eq_some_iff] at hk
  obtain ⟨d, hd, rfl⟩ := hk
  refine ⟨Nat.le_add_right .., _, _, getElem?_labelled (s.windowStart_add_lt cap d), ?_, ?_⟩
  · rw [sampleAt, List.getElem?_map, hd]
    rfl
  · rw [sampleAt, List.getElem?_map, hd]
    rfl

/-- A row that waits is not seen: a resample is the same without it. -/
theorem sample_pushPending {γ : Type} [Dice γ] (s : Store) (x : Features) (cap : ReplayCap) (rng : γ) :
    ((s.pushPending x).sample cap rng).1 = (s.sample cap rng).1 := by
  have hset : (s.pushPending x).sampleAt cap (s.draws cap rng) =
      s.sampleAt cap (s.draws cap rng) := by
    refine congrArg (TrainingSet.mk · _) (List.map_congr_left ?_)
    intro k _
    exact List.getElem_append_left _
  rw [sample_eq, sample_eq]
  exact hset

theorem injective_chosen : Function.Injective (s.chosen cap) := by
  refine List.map_injective_iff.mpr ?_
  intro k l h
  exact Fin.ext (Nat.add_left_cancel h)

/-- Every sequence of recent positions is pointed to by exactly one sequence of draws. -/
theorem bijOn_chosen (s : Store) (cap : ReplayCap) :
    Set.BijOn (s.chosen cap) {draws | draws.length = s.recentCount cap}
      (recentPositions s.count (s.recentCount cap)) := by
  refine ⟨?_, injective_chosen.injOn, ?_⟩
  · intro draws hlength
    refine ⟨(List.length_map _).trans hlength, ?_⟩
    intro k hk
    obtain ⟨d, -, rfl⟩ := List.mem_map.mp hk
    exact ⟨Nat.le_add_right .., s.windowStart_add_lt cap d⟩
  · rintro ks ⟨hlength, hrecent⟩
    have hrange : ks ∈ Set.range (List.map fun d : Fin (s.recentCount cap) =>
        s.windowStart cap + d.val) := by
      rw [Set.range_list_map]
      intro k hk
      have hstart : s.count - cap.window s.count ≤ k := (hrecent k hk).1
      have hcount := (hrecent k hk).2
      have hwindow := cap.window_le s.count
      have hd : k - s.windowStart cap < cap.window s.count := by
        unfold windowStart
        omega
      exact ⟨⟨_, hd⟩, Nat.add_sub_cancel' hstart⟩
    obtain ⟨draws, rfl⟩ := hrange
    exact ⟨draws, (List.length_map _).symm.trans hlength, rfl⟩

/-- Independent uniform draws point to every sequence of recent positions with the same probability. -/
theorem chosen_independentDraws (h : 0 < s.recentCount cap) {ks : List Nat}
    (hks : ks ∈ recentPositions s.count (s.recentCount cap)) :
    (independentDraws (s.recentCount cap) h (s.recentCount cap)).map (s.chosen cap) ks =
      (s.recentCount cap : ENNReal)⁻¹ ^ s.recentCount cap := by
  obtain ⟨draws, hlength, rfl⟩ := (bijOn_chosen s cap).surjOn hks
  have hdraws := independentDraws_apply h draws
  rw [map_apply_of_injective injective_chosen]
  rwa [show draws.length = s.recentCount cap from hlength] at hdraws

/-! ## The laws of a resample -/

/-- What is known of the resamples of a store, for its records and a cap. -/
structure ResampleLaws (s : Store) (records : List (Features × Float)) (cap : ReplayCap) : Prop where
  /-- A resample is made of as many draws as there are recent records, whatever they are drawn from. -/
  drawn : ∀ {γ : Type} [Dice γ] (rng : γ), (s.draws cap rng).length = s.recentCount cap ∧
    (s.sample cap rng).1 = s.sampleAt cap (s.draws cap rng)
  /-- Any draws of that number may be drawn. -/
  scripted : ∀ draws, draws.length = s.recentCount cap → s.draws cap (Script.ofDraws draws) = draws
  /-- As many rows and targets come out. -/
  size : ∀ draws, draws.length = s.recentCount cap →
    (s.sampleAt cap draws).x.length = s.recentCount cap ∧
      (s.sampleAt cap draws).y.length = s.recentCount cap
  /-- The row and the target in one place are those of the record that the draw in this place points
  to, which is a recent one. -/
  pairs : ∀ draws (j k : Nat), (s.chosen cap draws)[j]? = some k →
    records.length - s.recentCount cap ≤ k ∧ ∃ x y, records[k]? = some (x, y) ∧
      (s.sampleAt cap draws).x[j]? = some x ∧ (s.sampleAt cap draws).y[j]? = some y
  /-- A row that waits for its reward is not seen. -/
  unseen : ∀ {γ : Type} [Dice γ] (x : Features) (rng : γ),
    ((s.pushPending x).sample cap rng).1 = (s.sample cap rng).1
  /-- Sequences of draws and sequences of positions of recent records correspond one to one. -/
  bijective : Set.BijOn (s.chosen cap) {draws | draws.length = s.recentCount cap}
    (recentPositions records.length (s.recentCount cap))
  /-- Each of the latter is as likely as any other if the draws are uniform and independent. -/
  uniform : ∀ h : 0 < s.recentCount cap, ∀ ks ∈ recentPositions records.length (s.recentCount cap),
    (independentDraws (s.recentCount cap) h (s.recentCount cap)).map (s.chosen cap) ks =
      (s.recentCount cap : ENNReal)⁻¹ ^ s.recentCount cap

theorem resampleLaws (s : Store) (cap : ReplayCap) : s.ResampleLaws s.labelled cap where
  drawn rng := ⟨s.length_draws cap rng, s.sample_eq cap rng⟩
  scripted _ := draws_ofDraws
  size draws hlength := ⟨(List.length_map _).trans hlength, (List.length_map _).trans hlength⟩
  pairs _ _ _ hk := by
    rw [length_labelled]
    exact pairs_sampleAt hk
  unseen x rng := s.sample_pushPending x cap rng
  bijective := by
    rw [length_labelled]
    exact bijOn_chosen s cap
  uniform h ks hks := by
    rw [length_labelled] at hks
    exact chosen_independentDraws h hks

/-- After any operations on the empty store, and for any limit, all records are recent if the limit is
not positive, and otherwise the last ones up to the limit. Resamples follow the laws above, for the
records that the operations made. -/
theorem resample_of_operations (ops : List StoreOp) (limit : Int) :
    ((empty.after ops).recentCount (.ofLimit limit) : Int) =
        (if limit ≤ 0 then ((Chronicle.empty.after ops).records.length : Int)
          else min limit (Chronicle.empty.after ops).records.length) ∧
      (empty.after ops).ResampleLaws (Chronicle.empty.after ops).records (.ofLimit limit) := by
  have hrecords : (Chronicle.empty.after ops).records = (empty.after ops).labelled :=
    congrArg Chronicle.records (chronicle_after empty ops).symm
  rw [hrecords, length_labelled]
  exact ⟨ReplayCap.window_ofLimit .., resampleLaws ..⟩

end Store

end AdaptiveConsensus
