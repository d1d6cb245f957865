import AdaptiveConsensus.Proofs.Episode.Consultations
import AdaptiveConsensus.Proofs.Strategy.Holds

/-!
# Exploration by the pairwise strategy

The pairwise strategy tries every pair before it repeats one, although a reward comes two reports
late. What makes this work is that a pair without a record is held from its choice to its reward. This
file follows the flags through whole runs, of any learner, with any writes of the log failing.

- `holds_of_run`: which pairs are held, in every reachable state and whenever a decision is asked for,
  and that a held pair is not chosen again.
- `sweep_of_run`: while some candidate was never tried, the decision is one that was never tried.
-/

namespace AdaptiveConsensus

open AdaptiveConsensus.Random Handling

variable {L : Learner} {γ : Type}

/-- The pair of a decision. -/
def Issue.pair (i : Issue) : Protocol × Protocol :=
  (i.report.current, i.choice.protocol)

/-- The pairwise strategy, if it is the active one. -/
def Strategy.pairwise? : Strategy L γ → Option (Quadratic L γ)
  | quadratic q => some q
  | _ => none

namespace Handling

/-- The pairwise strategy as it is asked for a decision on the report, if it is asked. -/
def pairwise? (h : Handling L γ) : Option (Quadratic L γ) :=
  h.asking?.bind fun c => c.strategy.pairwise?

theorem pairwise?_eq_some {h : Handling L γ} {q : Quadratic L γ} (hq : h.pairwise? = some q) :
    ∃ c, h.asking? = some c ∧ c.strategy = .quadratic q := by
  obtain ⟨c, hasking, hstrategy⟩ := Option.bind_eq_some_iff.mp hq
  refine ⟨c, hasking, ?_⟩
  cases hs : c.strategy <;> rw [hs] at hstrategy <;> cases hstrategy
  rfl

variable [Dice γ]

/-- A decision that was made was asked for. -/
theorem asked_of_issue {h : Handling L γ} {i : Issue} (hi : h.issue? = some i) :
    ∃ c, h.asking? = some c ∧ i.report = h.report ∧
      (c.ask h.report h.measured).outcome = .ok i.choice ∧
      h.handled.work = (c.ask h.report h.measured).work := by
  rcases h.course with ⟨e, -, -, -, -, hnone⟩ | ⟨-, -, -, hnone⟩ | ⟨c, e, -, -, -, -, -, hnone⟩ |
    ⟨c, choice, -, -, hasking, hanswer, hhandled, hissue⟩
  · rw [hnone] at hi
    cases hi
  · rw [hnone] at hi
    cases hi
  · rw [hnone] at hi
    cases hi
  · rw [hissue] at hi
    obtain rfl := Option.some.inj hi
    exact ⟨c, hasking, rfl, hanswer, by rw [hhandled]⟩

/-- The decisions made before a decision are those made in the reports before its report. -/
theorem issues_getElem? {calls : List (Handling L γ)} {n : Nat} {i : Issue}
    (hn : (issues calls)[n]? = some i) :
    ∃ m h, calls[m]? = some h ∧ h.issue? = some i ∧ issues (calls.take m) = (issues calls).take n := by
  induction calls generalizing n with
  | nil => cases hn
  | cons h rest ih =>
    cases hi : h.issue? with
    | none =>
      have hrest : issues (h :: rest) = issues rest := List.filterMap_cons_none hi
      rw [hrest] at hn
      obtain ⟨m, h', hm, hi', htake⟩ := ih hn
      refine ⟨m + 1, h', hm, hi', ?_⟩
      rw [hrest, ← htake]
      exact List.filterMap_cons_none hi
    | some j =>
      have hcons : ∀ more, issues (h :: more) = j :: issues more := fun more =>
        List.filterMap_cons_some hi
      rw [hcons] at hn ⊢
      cases n with
      | zero => exact ⟨0, h, rfl, hi.trans hn, rfl⟩
      | succ n =>
        obtain ⟨m, h', hm, hi', htake⟩ := ih hn
        refine ⟨m + 1, h', hm, hi', ?_⟩
        rw [List.take_succ_cons, List.take_succ_cons, hcons, htake]

end Handling

variable [Dice γ] {settings : StrategySettings} {history : List HistoryRow}

/-! ## The flags in runs -/

/-- Every call of the strategy keeps the flags. -/
theorem holdsFor_carried (settings : StrategySettings) (history : List HistoryRow) :
    Carried (L := L) (γ := γ) .quadratic settings history fun s waiting _ _ =>
      ∃ q, s = .quadratic q ∧ q.HoldsFor waiting where
  reward := by
    rintro s d rest calls trace raw - hok ⟨q, rfl, hq⟩
    exact ⟨_, rfl, hq.recordReward hok⟩
  shown := fun _ _ _ _ _ _ hs => hs
  quiet := fun _ _ _ _ _ _ _ hs => hs
  failed := by
    rintro h calls trace c resolved waiting e - - - ⟨q, hstrategy, hq⟩ hanswer -
    rw [Controller.ask, hstrategy] at hanswer ⊢
    exact ⟨_, rfl, hq.decide_of_error hanswer⟩
  decided := by
    rintro h calls trace c resolved waiting choice - - - ⟨q, hstrategy, hq⟩ hanswer -
    rw [Controller.ask, hstrategy] at hanswer ⊢
    exact ⟨_, rfl, hq.decide hanswer⟩

theorem holdsFor_start (settings : StrategySettings) (history : List HistoryRow) (rng : γ) :
    ∃ q, (Strategy.build (L := L) .quadratic settings history rng).strategy = .quadratic q ∧
      q.HoldsFor [] :=
  ⟨_, rfl, Quadratic.holdsFor_build settings.cap history rng⟩

/-- The pair of a credited decision has a record. -/
theorem Filing.Accounts.count_ne_zero {b : Buckets (Protocol × Protocol) L}
    {resolved : List Resolution} {waiting : List FiledDecision}
    (h : pairFiling.Accounts b (history ++ resolved.map Resolution.row) waiting) {r : Resolution}
    (hr : r ∈ resolved) : (b.get r.issue.pair).count ≠ 0 := by
  intro hzero
  have hrows := (h.count_eq_zero r.issue.pair).mp hzero
  exact hrows r.row (List.mem_append_right _ (List.mem_map_of_mem hr)) rfl

omit [Dice γ] in
/-- A pair whose decision was credited is not held. -/
theorem Quadratic.HoldsFor.released {q : Quadratic L γ} {queue : List PendingDecision}
    {resolved : List Resolution} {waiting : List FiledDecision} (hq : q.HoldsFor queue)
    (h : pairFiling.Accounts q.buckets (history ++ resolved.map Resolution.row) waiting)
    {r : Resolution} (hr : r ∈ resolved) : q.onHold.get r.issue.pair = false := by
  refine Bool.eq_false_iff.mpr fun hheld => ?_
  exact h.count_ne_zero hr ((hq _).mp hheld).1

/-- What the flags tell. -/
structure HoldLaws (c : Controller L γ) (calls : List (Handling L γ)) : Prop where
  /-- Between two reports, a pair is held exactly if its bucket has no record and a decision of it
  waits; once a decision of it was credited it is not held. -/
  between : ∃ q, c.strategy = .quadratic q ∧ q.HoldsFor c.pending ∧
    ∀ r ∈ rewards calls, q.onHold.get (r.1, r.2.1) = false
  /-- The same is true when a decision is asked for, after the credit. -/
  asked : ∀ (n : Nat) (h : Handling L γ) (q : Quadratic L γ), calls[n]? = some h →
    h.pairwise? = some q → ∃ c', h.asking? = some c' ∧ q.HoldsFor c'.pending ∧
      ∀ r ∈ rewards (calls.take (n + 1)), q.onHold.get (r.1, r.2.1) = false
  /-- Then no pair is held but that of the preceding decision. -/
  newest : ∀ (n : Nat) (h : Handling L γ) (q : Quadratic L γ), calls[n]? = some h →
    h.pairwise? = some q → ∀ k, q.onHold.get k = true →
    (issues (calls.take n)).getLast?.map Issue.pair = some k
  /-- It is not chosen again while another candidate scores above the lowest score. -/
  passed : ∀ (n : Nat) (h : Handling L γ) (q : Quadratic L γ) (i : Issue), calls[n]? = some h →
    h.pairwise? = some q → h.issue? = some i →
    ∀ held, q.onHold.get (h.report.current, held) = true →
    ∀ (scores : List Float) (other : Protocol) (x : Float), h.handled.work.scores = some scores →
      scores[other.index.val]? = some x → lowest < x → i.choice.protocol ≠ held
  /-- The decisions and effects of the laws are those of the calls. -/
  traced : ∀ h ∈ calls, h.Traced

section

variable (settings : StrategySettings) (history : List HistoryRow) (rng : γ) (log : TrainingLog)
  (warmup : Nat) (events : List Event)

/-- What is known of the pairwise strategy whenever it is asked. -/
theorem holdsFor_asked {n : Nat} {h : Handling L γ} {q : Quadratic L γ}
    (hn : ((runStart .quadratic settings history rng log warmup).handlings events)[n]? = some h)
    (hq : h.pairwise? = some q) :
    ∃ c resolved waiting, h.asking? = some c ∧ c.strategy = .quadratic q ∧
      Midway .quadratic settings history h
        (((runStart .quadratic settings history rng log warmup).handlings events).take n) c resolved
        waiting ∧
      waiting.length ≤ 1 ∧ q.HoldsFor c.pending := by
  obtain ⟨c, hasking, hstrategy⟩ := pairwise?_eq_some hq
  obtain ⟨⟨resolved, waiting, hm⟩, hone, q', hstrategy', hholds⟩ :=
    (holdsFor_carried settings history).asked (holdsFor_start settings history rng) hn hasking
  rw [hstrategy] at hstrategy'
  obtain rfl := Strategy.quadratic.inj hstrategy'
  rw [hm.queue, List.length_map] at hone
  exact ⟨c, resolved, waiting, hasking, hstrategy, hm, hone, hholds⟩

/-- In every run of the pairwise strategy a pair is held exactly while it has no record and a decision
of it waits. Whenever a decision is asked for, at most one pair is held, that of the preceding decision,
and it is passed over as long as another candidate scores above the lowest score. -/
theorem holds_of_run :
    HoldLaws ((runStart (L := L) .quadratic settings history rng log warmup).after events)
      ((runStart .quadratic settings history rng log warmup).handlings events) where
  between := by
    obtain ⟨q, hstrategy, hq⟩ := (holdsFor_carried (L := L) settings history).of_run
      (holdsFor_start settings history rng) log warmup events
    obtain ⟨resolved, waiting, hb⟩ :=
      Books.of_run (L := L) .quadratic settings history rng log warmup events
    refine ⟨q, hstrategy, hq, ?_⟩
    have haccount := hb.account
    rw [hstrategy] at haccount
    rw [rewards_eq, hb.departures, List.map_map]
    intro r hr
    obtain ⟨r, hmem, rfl⟩ := List.mem_map.mp hr
    exact hq.released haccount hmem
  asked := by
    intro n h q hn hq
    obtain ⟨c, resolved, waiting, hasking, hstrategy, hm, -, hholds⟩ :=
      holdsFor_asked settings history rng log warmup events hn hq
    refine ⟨c, hasking, hholds, ?_⟩
    have haccount := hm.account
    rw [hstrategy] at haccount
    rw [List.take_add_one, hn, Option.toList_some, hm.rewards_eq]
    intro r hr
    obtain ⟨r, hmem, rfl⟩ := List.mem_map.mp hr
    exact hholds.released haccount hmem
  newest := by
    intro n h q hn hq k hk
    obtain ⟨c, resolved, waiting, -, -, hm, hone, hholds⟩ :=
      holdsFor_asked settings history rng log warmup events hn hq
    obtain ⟨-, d, hd, rfl⟩ := (hholds k).mp hk
    rw [hm.queue] at hd
    obtain ⟨i, hi, rfl⟩ := List.mem_map.mp hd
    -- the one decision that waits is the last one made
    obtain ⟨j, rfl⟩ := List.length_eq_one_iff.mp
      (Nat.le_antisymm hone (List.length_pos_of_mem hi))
    rw [hm.issues, List.getLast?_concat, List.mem_singleton.mp hi]
    rfl
  passed := by
    intro n h q i hn hq hi held hheld scores other x hscores hother hlt
    obtain ⟨c, resolved, waiting, hasking, hstrategy, hm, -, hholds⟩ :=
      holdsFor_asked settings history rng log warmup events hn hq
    obtain ⟨c', hasking', -, hanswer, hwork⟩ := asked_of_issue hi
    obtain rfl : c = c' := Option.some.inj (hasking.symm.trans hasking')
    rw [hwork, Controller.ask, hstrategy] at hscores
    rw [Controller.ask, hstrategy] at hanswer
    exact Quadratic.ne_held_of_decide hanswer hheld ((hholds _).mp hheld).1 hscores hother hlt
  traced h _ := h.traced

end

/-! ## No pair twice before all were tried -/

/-- No row of the history and no decision made has the pair. -/
def Untried (history : List HistoryRow) (made : List Issue) (k : Protocol × Protocol) : Prop :=
  (∀ row ∈ history, (row.previous, row.action) ≠ k) ∧ ∀ i ∈ made, i.pair ≠ k

/-- When a decision is asked for, no model that may be consulted estimates the highest score. -/
def NeverHighest (calls : List (Handling L γ)) : Prop :=
  ∀ h ∈ calls, ∀ q ∈ h.pairwise?, ∀ c ∈ Protocol.pool,
    (q.refresh.1.buckets.get (h.report.current, c)).predict h.report.state.toList ≠ .ok highest

/-- In between, a pair is untried exactly if it has no record and is not held. -/
theorem Midway.untried_iff {h : Handling L γ} {calls : List (Handling L γ)} {c : Controller L γ}
    {resolved : List Resolution} {waiting : List Issue} {q : Quadratic L γ}
    (hm : Midway .quadratic settings history h calls c resolved waiting)
    (hstrategy : c.strategy = .quadratic q) (hholds : q.HoldsFor c.pending)
    (k : Protocol × Protocol) :
    Untried history (Handling.issues calls) k ↔
      (q.buckets.get k).count = 0 ∧ q.onHold.get k = false := by
  have haccount := hm.account
  rw [hstrategy] at haccount
  have hcount := Filing.Accounts.count_eq_zero (f := pairFiling) haccount k
  rw [Untried, hm.issues]
  constructor
  · rintro ⟨hhistory, hmade⟩
    refine ⟨hcount.mpr fun row hrow => ?_, Bool.eq_false_iff.mpr fun hheld => ?_⟩
    · rcases List.mem_append.mp hrow with hrow | hrow
      · exact hhistory row hrow
      · obtain ⟨r, hr, rfl⟩ := List.mem_map.mp hrow
        exact hmade r.issue (List.mem_append_left _ (List.mem_map_of_mem hr))
    · obtain ⟨-, d, hd, hpair⟩ := (hholds k).mp hheld
      rw [hm.queue] at hd
      obtain ⟨i, hi, rfl⟩ := List.mem_map.mp hd
      exact hmade i (List.mem_append_right _ hi) hpair
  · rintro ⟨hzero, hfree⟩
    have hrows := hcount.mp hzero
    refine ⟨fun row hrow => hrows row (List.mem_append_left _ hrow), fun i hi hpair => ?_⟩
    rcases List.mem_append.mp hi with hi | hi
    · obtain ⟨r, hr, rfl⟩ := List.mem_map.mp hi
      exact hrows r.row (List.mem_append_right _ (List.mem_map_of_mem hr)) hpair
    · -- a decision that waits would hold the pair
      have hheld : q.onHold.get k = true := by
        refine (hholds k).mpr ⟨hzero, i.decision, ?_, hpair⟩
        rw [hm.queue]
        exact List.mem_map_of_mem hi
      rw [hfree] at hheld
      cases hheld

/-- How the pairs are swept. -/
structure SweepLaws (history : List HistoryRow) (calls : List (Handling L γ)) : Prop where
  /-- If some candidate was never tried when a decision was made, the one chosen was never tried. -/
  fresh : ∀ (n : Nat) (i : Issue) (c : Protocol), (issues calls)[n]? = some i →
    Untried history ((issues calls).take n) (i.report.current, c) →
    Untried history ((issues calls).take n) i.pair
  /-- No pair is decided a second time before every candidate has a history row or was decided. -/
  complete : ∀ (m n : Nat) (i j : Issue), m < n → (issues calls)[m]? = some i →
    (issues calls)[n]? = some j → i.pair = j.pair →
    (∀ row ∈ history, (row.previous, row.action) ≠ i.pair) →
    ∀ c, (∃ row ∈ history, (row.previous, row.action) = (i.report.current, c)) ∨
      ∃ k < n, ∃ l, (issues calls)[k]? = some l ∧ l.pair = (i.report.current, c)
  /-- The decisions and effects of the laws are those of the calls. -/
  traced : ∀ h ∈ calls, h.Traced

/-- The second law follows from the first: a pair that was decided is tried. -/
theorem SweepLaws.of_fresh {calls : List (Handling L γ)}
    (hfresh : ∀ (n : Nat) (i : Issue) (c : Protocol), (issues calls)[n]? = some i →
      Untried history ((issues calls).take n) (i.report.current, c) →
      Untried history ((issues calls).take n) i.pair) : SweepLaws history calls where
  fresh := hfresh
  complete := by
    intro m n i j hlt hm hn hpair _ c
    by_contra hnot
    have hcurrent : i.report.current = j.report.current := congrArg Prod.fst hpair
    rw [not_or, hcurrent] at hnot
    have huntried : Untried history ((issues calls).take n) (j.report.current, c) := by
      refine ⟨fun row hrow heq => hnot.1 ⟨row, hrow, heq⟩, fun l hl heq => ?_⟩
      obtain ⟨k, hk⟩ := List.mem_iff_getElem?.mp hl
      rw [List.getElem?_take] at hk
      split at hk
      · next hkn => exact hnot.2 ⟨k, hkn, l, hk, heq⟩
      · cases hk
    refine (hfresh n j c hn huntried).2 i ?_ hpair
    refine List.mem_iff_getElem?.mpr ⟨m, ?_⟩
    rw [List.getElem?_take, if_pos hlt, hm]
  traced h _ := h.traced

/-- Unless some model estimates the highest score, a run of the pairwise strategy tries what was never
tried: a report that finds an untried candidate is answered by one, so that no pair without history is
decided twice before all six candidates were tried. -/
theorem sweep_of_run (settings : StrategySettings) (history : List HistoryRow) (rng : γ)
    (log : TrainingLog) (warmup : Nat) (events : List Event)
    (hfinite : NeverHighest
      ((runStart (L := L) .quadratic settings history rng log warmup).handlings events)) :
    SweepLaws history
      ((runStart (L := L) .quadratic settings history rng log warmup).handlings events) := by
  apply SweepLaws.of_fresh
  intro n i c hn huntried
  obtain ⟨m, h, hm, hi, htake⟩ := issues_getElem? hn
  obtain ⟨c', hasking, hreport, hanswer, -⟩ := asked_of_issue hi
  obtain ⟨q, hq⟩ : ∃ q, h.pairwise? = some q := by
    obtain ⟨-, -, q, hstrategy, -⟩ :=
      (holdsFor_carried settings history).asked (holdsFor_start settings history rng) hm hasking
    exact ⟨q, by rw [pairwise?, hasking, Option.bind_some, hstrategy]; rfl⟩
  obtain ⟨c'', resolved, waiting, hasking', hstrategy, hmid, -, hholds⟩ :=
    holdsFor_asked settings history rng log warmup events hm hq
  obtain rfl : c' = c'' := Option.some.inj (hasking.symm.trans hasking')
  have hiff := hmid.untried_iff hstrategy hholds
  rw [← htake] at huntried ⊢
  rw [hreport] at huntried
  obtain ⟨hzero, hfree⟩ := (hiff _).mp huntried
  rw [Controller.ask, hstrategy] at hanswer
  have hchosen := Quadratic.untried_of_decide hanswer
    (fun c x hx hxh => hfinite h (List.mem_of_getElem? hm) q hq c c.mem_pool (hxh ▸ hx)) hzero hfree
  rw [Issue.pair, hreport]
  exact (hiff _).mpr hchosen

/-- One history row. -/
def sweepHistory : List HistoryRow :=
  [⟨⟨0.75, 21, 256, 6, 0, 1⟩, .pbft, .cheapBft, 800⟩]

/-- The controller of the pairwise strategy on that history, with a small forest. -/
def sweepStart : Controller (Forest.learner ⟨1, 1⟩) ChaCha :=
  runStart .quadratic ⟨.unlimited, false⟩ sweepHistory (ChaCha.ofSeed 0)
    ⟨BufferedDevice.ofDevice Device.reliable, 0, none⟩ 1

/-- Six reports of one protocol, and one of another in between. -/
def sweepEvents : List Event :=
  let report (current : Protocol) : Event :=
    .report ⟨⟨0.5, 0, 1024, 6, 0, 1⟩, current, 1500⟩ Cost.free
  List.replicate 2 (report .pbft) ++ report .prime :: List.replicate 4 (report .pbft)

/-- In these seven reports five pairs of the one protocol are tried before one of them is repeated. -/
theorem sweep_of_sweepEvents :
    NeverHighest (sweepStart.handlings sweepEvents) ∧
      SweepLaws sweepHistory (sweepStart.handlings sweepEvents) := by
  have hfinite : NeverHighest (sweepStart.handlings sweepEvents) := by
    unfold NeverHighest
    decide +kernel
  exact ⟨hfinite, sweep_of_run _ _ _ _ _ _ hfinite⟩

end AdaptiveConsensus
