import AdaptiveConsensus.Episode.Controller
import AdaptiveConsensus.Proofs.Experience.Strategies
import AdaptiveConsensus.Proofs.Strategy.Scoring
import AdaptiveConsensus.Proofs.Strategy.Selection

/-!
# Pairs on hold

The pairwise strategy holds a pair that it chose without having a record of it, until the pair's first
reward. `Quadratic.HoldsFor` ties the flags to the decisions that wait for their reward.

- `Quadratic.decide_of_ok`: how a decision is made, from the scores to the new flags.
- `Quadratic.holdsFor_build`, `Quadratic.HoldsFor.recordReward`, `Quadratic.HoldsFor.decide`: each call
  of the strategy keeps the two together, as decisions leave and join the queue.
- `Quadratic.ne_held_of_decide`: a held candidate is passed over while another one scores above the
  lowest score.
- `Quadratic.untried_of_decide`: a candidate that has no record and is not held is chosen while there
  is one and no model estimates the highest score.
-/

namespace AdaptiveConsensus

open AdaptiveConsensus.Random

variable {L : Learner} {γ : Type}

/-- The pair of a decision that waits. -/
def PendingDecision.pair (d : PendingDecision) : Protocol × Protocol :=
  (d.previous, d.chosen)

namespace Quadratic

/-! ## How a decision is made -/

variable [Dice γ] {q : Quadratic L γ} {state : StateVector} {previous : Protocol} {measured : Cost}

theorem count_refresh (k : Protocol × Protocol) :
    (q.refresh.1.buckets.get k).count = (q.buckets.get k).count :=
  (Buckets.sameStores_trainStale q.buckets q.stale q.cap q.rng).count k

/-- The flags after a choice: that of its pair is set if the pair has no record. -/
def flagsAfter (q : Quadratic L γ) (previous chosen : Protocol) : Table (Protocol × Protocol) Bool :=
  if (q.buckets.get (previous, chosen)).count = 0 then q.onHold.set (previous, chosen) true
  else q.onHold

omit [Dice γ] in
theorem hold_onHold (chosen : Protocol) :
    (q.hold previous chosen).onHold = q.flagsAfter previous chosen := by
  rw [hold, flagsAfter]
  show (if (q.buckets.get (previous, chosen)).count = 0 then _ else q).onHold = _
  split <;> rfl

/-- A decision that fails leaves the flags as they are. -/
theorem onHold_decide_of_error {e : BucketError}
    (h : (q.decide state previous measured).outcome = .error e) :
    (q.decide state previous measured).state.onHold = q.onHold := by
  have honHold : q.refresh.1.onHold = q.onHold := rfl
  rw [decide] at h ⊢
  rcases hrefresh : q.refresh with ⟨fresh, fits, e' | ⟨⟩⟩ <;> rw [hrefresh] at h honHold
  · exact honHold
  · dsimp only at h ⊢
    cases hscores : (fresh.scoreAll state previous).outcome with
    | error e' => exact honHold
    | ok scores =>
      rw [hscores] at h
      cases h

/-- A decision is drawn from the scores that the refitted buckets give, and sets the flag of its pair
if that has no record. -/
theorem decide_of_ok {choice : Choice} (h : (q.decide state previous measured).outcome = .ok choice) :
    ∃ scores, (q.refresh.1.scoreAll state previous).outcome = .ok scores ∧
      (q.decide state previous measured).work.scores = some scores ∧
      choice.protocol = candidate (selectBest .exact scores q.refresh.1.rng).1 ∧
      (q.decide state previous measured).state.onHold = q.flagsAfter previous choice.protocol := by
  -- refitting keeps the flags and the numbers of records
  have hflags : q.refresh.1.flagsAfter previous = q.flagsAfter previous := by
    funext chosen
    rw [flagsAfter, flagsAfter, count_refresh]
    rfl
  rw [decide] at h ⊢
  rcases hrefresh : q.refresh with ⟨fresh, fits, e | ⟨⟩⟩ <;> rw [hrefresh] at h hflags
  · cases h
  · dsimp only at h ⊢
    cases hscores : (fresh.scoreAll state previous).outcome with
    | error e =>
      rw [hscores] at h
      cases h
    | ok scores =>
      rw [hscores] at h
      obtain rfl := Except.ok.inj h
      refine ⟨scores, rfl, rfl, rfl, ?_⟩
      rw [hold_onHold, ← hflags]
      rfl

/-! ## The flags and the queue -/

/-- A pair is on hold exactly if it has no record and a decision of it waits. -/
def HoldsFor (q : Quadratic L γ) (waiting : List PendingDecision) : Prop :=
  ∀ k, q.onHold.get k = true ↔ (q.buckets.get k).count = 0 ∧ ∃ d ∈ waiting, d.pair = k

theorem holdsFor_build (cap : ReplayCap) (history : List HistoryRow) (rng : γ) :
    (build (L := L) cap history rng).1.HoldsFor [] := by
  intro k
  have hflag : (build (L := L) cap history rng).1.onHold.get k = false := Table.get_ofFn (fun _ => false) k
  rw [hflag]
  refine iff_of_false Bool.false_ne_true ?_
  rintro ⟨-, d, hd, -⟩
  exact List.not_mem_nil hd

omit [Dice γ] in
/-- A reward gives the pair of its decision a record and ends its hold. -/
theorem HoldsFor.recordReward {d : PendingDecision} {waiting : List PendingDecision}
    (h : q.HoldsFor (d :: waiting)) {raw : Float}
    (hok : (q.recordReward d.previous d.chosen raw).2 = .ok ()) :
    (q.recordReward d.previous d.chosen raw).1.HoldsFor waiting := by
  rw [Quadratic.recordReward] at hok ⊢
  cases hrec : filing.recordReward? q.buckets d.previous d.chosen raw with
  | none =>
    rw [hrec] at hok
    cases hok
  | some buckets =>
    obtain ⟨hcount, hothers⟩ := Filing.recordReward?_eq_some hrec
    intro k
    show (q.onHold.set d.pair false).get k = true ↔ (buckets.get k).count = 0 ∧ _
    by_cases hk : k = d.pair
    · rw [hk, Table.get_set_self]
      refine iff_of_false Bool.false_ne_true ?_
      rintro ⟨hzero, -⟩
      change (buckets.get d.pair).count = _ + 1 at hcount
      rw [hzero] at hcount
      exact Nat.succ_ne_zero _ hcount.symm
    · rw [Table.get_set_ne _ _ hk, h k, hothers k hk]
      refine and_congr_right fun _ => ⟨?_, ?_⟩
      · rintro ⟨d', hd', hpair⟩
        rcases List.mem_cons.mp hd' with rfl | hd'
        · exact (hk hpair.symm).elim
        · exact ⟨d', hd', hpair⟩
      · rintro ⟨d', hd', hpair⟩
        exact ⟨d', List.mem_cons_of_mem _ hd', hpair⟩

/-- A decision that fails leaves everything as it was. -/
theorem HoldsFor.decide_of_error {waiting : List PendingDecision} (h : q.HoldsFor waiting)
    {e : BucketError} (herror : (q.decide state previous measured).outcome = .error e) :
    (q.decide state previous measured).state.HoldsFor waiting := by
  intro k
  rw [onHold_decide_of_error herror, (q.sameStores_decide state previous measured).count]
  exact h k

/-- A decision puts its pair on hold if it has no record, and waits. -/
theorem HoldsFor.decide {waiting : List PendingDecision} (h : q.HoldsFor waiting) {choice : Choice}
    (hok : (q.decide state previous measured).outcome = .ok choice) :
    ((q.decide state previous measured).state.recordDecision previous choice.protocol state).HoldsFor
      (waiting ++ [⟨previous, choice.protocol, choice.cost⟩]) := by
  obtain ⟨-, -, -, -, honHold⟩ := decide_of_ok hok
  intro k
  have hcount : (((q.decide state previous measured).state.recordDecision previous choice.protocol
      state).buckets.get k).count = (q.buckets.get k).count :=
    (Filing.count_recordDecision ..).trans ((q.sameStores_decide state previous measured).count k)
  rw [hcount]
  show (q.decide state previous measured).state.onHold.get k = true ↔ _
  rw [honHold, flagsAfter]
  by_cases hk : k = (previous, choice.protocol)
  · -- the pair of the decision now has a decision that waits
    subst hk
    have hnew : ∃ d ∈ waiting ++ [⟨previous, choice.protocol, choice.cost⟩],
        d.pair = (previous, choice.protocol) :=
      ⟨_, List.mem_append_right _ (List.mem_singleton_self _), rfl⟩
    by_cases hzero : (q.buckets.get (previous, choice.protocol)).count = 0
    · rw [if_pos hzero, Table.get_set_self]
      exact iff_of_true rfl ⟨hzero, hnew⟩
    · rw [if_neg hzero, h]
      exact iff_of_false (fun hheld => hzero hheld.1) fun hheld => hzero hheld.1
  · have hsame : (if (q.buckets.get (previous, choice.protocol)).count = 0 then
        q.onHold.set (previous, choice.protocol) true else q.onHold).get k = q.onHold.get k := by
      split
      · exact Table.get_set_ne _ _ hk
      · rfl
    rw [hsame, h k]
    refine and_congr_right fun _ => ⟨?_, ?_⟩
    · rintro ⟨d, hd, hpair⟩
      exact ⟨d, List.mem_append_left _ hd, hpair⟩
    · rintro ⟨d, hd, hpair⟩
      rcases List.mem_append.mp hd with hd | hd
      · exact ⟨d, hd, hpair⟩
      · rw [List.mem_singleton.mp hd] at hpair
        exact (hk hpair.symm).elim

/-! ## What is chosen -/

/-- A held candidate is not chosen while another one scores above the lowest score. -/
theorem ne_held_of_decide {choice : Choice} {held other : Protocol} {scores : List Float} {x : Float}
    (hok : (q.decide state previous measured).outcome = .ok choice)
    (hheld : q.onHold.get (previous, held) = true)
    (hzero : (q.buckets.get (previous, held)).count = 0)
    (hscores : (q.decide state previous measured).work.scores = some scores)
    (hother : scores[other.index.val]? = some x) (hlt : lowest < x) : choice.protocol ≠ held := by
  obtain ⟨scores', hscored, hscores', hchoice, -⟩ := decide_of_ok hok
  obtain rfl : scores' = scores := Option.some.inj (hscores'.symm.trans hscores)
  obtain ⟨y, hy, hne⟩ := selectBest_ne_lowest (List.mem_of_getElem? hother) hlt q.refresh.1.rng
  rintro hheld'
  -- the score of the chosen candidate is that of the held one, which has the lowest
  obtain ⟨hunknown, -⟩ := Scored.tells_candidate hscored hy
  rw [← hchoice, hheld', count_refresh] at hunknown
  refine hne ((hunknown hzero).trans ?_)
  exact if_pos hheld

/-- A candidate that has no record and is not held is chosen while there is one, unless a model
estimates the highest score. -/
theorem untried_of_decide {choice : Choice} {c : Protocol}
    (hok : (q.decide state previous measured).outcome = .ok choice)
    (hfinite : ∀ c x, (q.refresh.1.buckets.get (previous, c)).predict state.toList = .ok x →
      x ≠ highest)
    (hzero : (q.buckets.get (previous, c)).count = 0)
    (hfree : q.onHold.get (previous, c) = false) :
    (q.buckets.get (previous, choice.protocol)).count = 0 ∧
      q.onHold.get (previous, choice.protocol) = false := by
  obtain ⟨scores, hscored, -, hchoice, -⟩ := decide_of_ok hok
  -- the candidate has the highest score, so that the chosen one has it too
  obtain ⟨x, hx, hunknown, -⟩ := Scored.tells_index hscored c
  have hx' : x = highest := by
    rw [count_refresh] at hunknown
    refine (hunknown hzero).trans (if_neg ?_)
    show ¬ q.onHold.get (previous, c) = true
    rw [hfree]
    exact Bool.false_ne_true
  have hbest := selectBest_highest (hx' ▸ List.mem_of_getElem? hx) q.refresh.1.rng
  obtain ⟨hnone, hmodel⟩ := Scored.tells_candidate hscored hbest
  rw [← hchoice, count_refresh] at hnone hmodel
  have hzero' : (q.buckets.get (previous, choice.protocol)).count = 0 := by
    by_contra hne
    exact hfinite _ _ (hmodel hne) rfl
  refine ⟨hzero', Bool.eq_false_iff.mpr fun hheld => ?_⟩
  -- a held pair has the lowest score
  have hlow : highest = lowest := (hnone hzero').trans (if_pos hheld)
  have hunpack := congrArg (fun x : Float => x.toModel.unpack) hlow
  rw [unpack_highest, unpack_lowest] at hunpack
  cases hunpack

end Quadratic

end AdaptiveConsensus
