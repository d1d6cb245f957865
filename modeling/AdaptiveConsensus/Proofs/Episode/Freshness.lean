import AdaptiveConsensus.Proofs.Episode.Faults
import AdaptiveConsensus.Proofs.Forest.Answers
import AdaptiveConsensus.Proofs.Strategy.Refits

/-!
# No stale model is asked

A strategy with a grid of buckets refits a bucket only when the next decision is asked for, and it
remembers one bucket at most. This file follows the models through whole runs, with any writes of the log
failing: whenever a bucket is asked for an estimate, its model was fitted to the records that it holds,
and these are all that were credited to it.

- `Filing.rewardedSince`: the buckets rewarded since the last decision was asked for.
- `GridView.Kept.decided`, `GridView.Kept.fresh`: what one decision does to a grid that is kept.
- `GridView.kept_carried`: every call of the strategy keeps it.
- `fresh_of_run`: so that all models are up to date when they are asked, and sets are handed to the
  learner as often as throughputs are credited.
-/

namespace AdaptiveConsensus

open AdaptiveConsensus.Random Handling

variable {κ : Type} {L : Learner} {γ : Type} [Dice γ]

/-! ## What was rewarded since the last decision -/

namespace Filing

variable {f : Filing κ}

/-- The buckets rewarded since the last decision was asked for, after one more effect. -/
def mark (f : Filing κ) (marked : List κ) : Effect → List κ
  | .reward previous chosen _ (.ok _) => marked ++ [f.key previous chosen]
  | .decide _ _ _ _ => []
  | _ => marked

/-- The buckets rewarded since the last decision was asked for. -/
def rewardedSince (f : Filing κ) (trace : List Effect) : List κ :=
  trace.foldl f.mark []

theorem rewardedSince_append (trace more : List Effect) :
    f.rewardedSince (trace ++ more) = more.foldl f.mark (f.rewardedSince trace) := by
  rw [rewardedSince, List.foldl_append, rewardedSince]

theorem mark_of_showsLog {marked : List κ} {x : Effect} (hx : x.showsLog = true) :
    f.mark marked x = marked := by
  cases x <;> first | rfl | cases hx

end Filing

variable [Indexed κ] [DecidableEq κ] {kind : StrategyKind} {settings : StrategySettings}
  {f : Filing κ} {width : Nat} {history : List HistoryRow}

namespace GridView

variable (v : GridView kind settings f L γ)

/-- The pass made for a report, if the strategy is asked and a bucket is stale. -/
def refits (h : Handling L γ) : List (Refit κ L γ) :=
  (h.asking?.bind fun c => v.grid? c.strategy).toList.flatMap Grid.refits

/-- The passes made when the strategy was built. -/
def firstPasses (_ : GridView kind settings f L γ) (history : List HistoryRow) (rng : γ) :
    List (Refit κ L γ) :=
  Buckets.passes settings.cap (Indexed.keys κ) (f.seed Buckets.empty history) rng

/-- The passes made so far, first those of building. -/
def passes (history : List HistoryRow) (rng : γ) (calls : List (Handling L γ)) :
    List (Refit κ L γ) :=
  v.firstPasses history rng ++ calls.flatMap v.refits

/-- A decision by models that are up to date: what was known of the grid `g` that was asked on the report
`h`, and what is known of the grid `g'` that this left. -/
structure Fresh (history : List HistoryRow) (rng : γ) (calls : List (Handling L γ)) (h : Handling L γ)
    (work : Work) (g g' : Grid κ L γ) : Prop where
  /-- The buckets that were asked are those of `g'`. -/
  decided : g.Decided f g' h.report.state h.report.current work
  /-- Their models were fitted to the records that they hold. -/
  upToDate : ∀ k, (g'.buckets.get k).UpToDate settings.cap (v.passes history rng (calls ++ [h])) k
  /-- These are the records of the history and of all decisions credited so far, in this report or an
  earlier one. -/
  account : ∃ (resolved : List Resolution) (waiting : List Issue),
    issues calls = resolved.map Resolution.issue ++ waiting ∧
      departures (calls ++ [h]) = resolved.map Resolution.departure ∧
      f.Accounts g'.buckets (history ++ resolved.map Resolution.row) (waiting.map Issue.filed)
  /-- One bucket at most was refitted, the one rewarded since the last decision. -/
  refitted : (v.refits h).map Refit.key =
    f.rewardedSince (calls.flatMap effects ++ h.before.resolveEffects h.report.reward)
  once : (v.refits h).length ≤ 1
  /-- No store changed, and no other bucket. -/
  stores : Buckets.SameStores g.buckets g'.buckets
  others : ∀ k ∉ (v.refits h).map Refit.key, g'.buckets.get k = g.buckets.get k

/-- What runs keep of a grid: it can give a decision, its models are up to date but for one, that one is
the bucket rewarded since the last decision, and each other throughput was followed by a refit. -/
structure Kept (width : Nat) (first : List (Refit κ L γ)) (g : Grid κ L γ)
    (waiting : List PendingDecision) (calls : List (Handling L γ)) (trace : List Effect) : Prop where
  prepared : g.Prepared width settings.cap waiting
  upToDate : g.UpToDate settings.cap (first ++ calls.flatMap v.refits)
  marked : f.rewardedSince trace = g.stale.toList
  counted : (sets calls).length + g.stale.toList.length = (trace.filterMap Effect.rewarded?).length

variable {v} {first : List (Refit κ L γ)} {g : Grid κ L γ} {s : Strategy L γ}
  {waiting : List PendingDecision} {calls : List (Handling L γ)} {trace : List Effect}

theorem refits_of_asking {h : Handling L γ} {c : Controller L γ} (hasking : h.asking? = some c)
    (hgrid : v.grid? c.strategy = some g) : v.refits h = g.refits := by
  rw [refits, hasking, Option.bind_some, hgrid, Option.toList_some, List.flatMap_singleton]

theorem refits_of_quiet {h : Handling L γ} (hasking : h.asking? = none) : v.refits h = [] := by
  rw [refits, hasking]
  rfl

/-- An accepted throughput marks its bucket. -/
theorem Kept.reward {d : PendingDecision} {rest : List PendingDecision} {b : Buckets κ L}
    {raw : Float} (hg : v.Kept width first g (d :: rest) calls trace) (hone : rest.length = 1)
    (hb : f.recordReward? g.buckets d.previous d.chosen raw = some b) :
    v.Kept width first { g with buckets := b, stale := some (f.key d.previous d.chosen) } rest calls
      (trace ++ [.reward d.previous d.chosen raw (.ok ())]) := by
  have hstale := hg.prepared.stale_eq_none hone
  have hcounted := hg.counted
  refine ⟨hg.prepared.reward hone hb, hg.upToDate.reward hstale hb, ?_, ?_⟩
  · rw [Filing.rewardedSince_append, hg.marked, hstale]
    rfl
  · rw [List.filterMap_append, List.length_append, ← hcounted, hstale]
    rfl

/-- A look at what the log shows changes nothing. -/
theorem Kept.shown {x : Effect} (hx : x.showsLog = true)
    (hg : v.Kept width first g waiting calls trace) :
    v.Kept width first g waiting calls (trace ++ [x]) := by
  have hnone : [x].filterMap Effect.rewarded? = [] :=
    filterMap_rewarded?_of_showsLog fun y hy => by rwa [List.mem_singleton.mp hy]
  refine ⟨hg.prepared, hg.upToDate, ?_, ?_⟩
  · rw [Filing.rewardedSince_append]
    exact (Filing.mark_of_showsLog hx).trans hg.marked
  · rw [List.filterMap_append, hnone, List.append_nil]
    exact hg.counted

/-- A report that the strategy is not asked about changes nothing. -/
theorem Kept.quiet {h : Handling L γ} (hasking : h.asking? = none)
    (hwork : h.handled.work = Work.none) (hg : v.Kept width first g waiting calls trace) :
    v.Kept width first g waiting (calls ++ [h]) trace := by
  refine ⟨hg.prepared, ?_, hg.marked, ?_⟩
  · rw [List.flatMap_append, List.flatMap_singleton, refits_of_quiet hasking, List.append_nil]
    exact hg.upToDate
  · rw [sets_concat, hwork, show Work.none.fits = [] from rfl, List.append_nil]
    exact hg.counted

/-- A kept grid gives a decision, and the grid that this leaves has no stale bucket. -/
theorem Kept.decided (hf : f.Width width) (hcap : ∀ n, 0 < n → 0 < settings.cap.window n)
    (hL : L.Answers) {h : Handling L γ} {c : Controller L γ} {resolved : List Resolution}
    {filed : List Issue} (hm : Midway kind settings history h calls c resolved filed)
    (hasking : h.asking? = some c) (hgrid : v.grid? c.strategy = some g)
    (hg : v.Kept width first g waiting calls trace)
    (hfits : L.Fits (c.ask h.report h.measured).work.fits) :
    ∃ choice g', (c.ask h.report h.measured).outcome = .ok choice ∧
      v.grid? (c.ask h.report h.measured).state = some g' ∧
      g.Decided f g' h.report.state h.report.current (c.ask h.report h.measured).work ∧
      (∀ k, (g'.buckets.get k).UpToDate settings.cap (first ++ (calls ++ [h]).flatMap v.refits) k) ∧
      ∀ waiting', g'.Prepared width settings.cap waiting' := by
  have hrows := (v.accounts hgrid hm.account).uniform hf
  obtain ⟨choice, g', hchoice, hgrid', hdecided, hrefit, hprepared⟩ :=
    v.decided_of_prepared hgrid hg.prepared hf hrows hcap hL hfits
  refine ⟨choice, g', hchoice, hgrid', hdecided, fun k => ?_, hprepared⟩
  have hupToDate := hg.upToDate
  rw [← hg.prepared.cap_eq] at hupToDate ⊢
  rw [List.flatMap_append, List.flatMap_singleton, refits_of_asking hasking hgrid, ← List.append_assoc,
    hdecided.buckets]
  exact hupToDate.refit hrefit k

/-- A kept grid decides by models that are up to date. -/
theorem Kept.fresh (hf : f.Width width) (hcap : ∀ n, 0 < n → 0 < settings.cap.window n)
    (hL : L.Answers) {rng : γ} {h : Handling L γ} {c : Controller L γ} {resolved : List Resolution}
    {filed : List Issue} (hm : Midway kind settings history h calls c resolved filed)
    (hasking : h.asking? = some c) (hgrid : v.grid? c.strategy = some g)
    (hg : v.Kept width (v.firstPasses history rng) g waiting calls
      (calls.flatMap effects ++ h.before.resolveEffects h.report.reward))
    (hfits : L.Fits (c.ask h.report h.measured).work.fits) :
    ∃ choice g', (c.ask h.report h.measured).outcome = .ok choice ∧
      v.grid? (c.ask h.report h.measured).state = some g' ∧
      v.Fresh history rng calls h (c.ask h.report h.measured).work g g' := by
  obtain ⟨choice, g', hchoice, hgrid', hdecided, hupToDate, -⟩ :=
    hg.decided hf hcap hL hm hasking hgrid hfits
  have hkeys : (v.refits h).map Refit.key = g.stale.toList := by
    rw [refits_of_asking hasking hgrid, g.keys_refits]
  have hstores : Buckets.SameStores g.buckets g'.buckets := by
    rw [hdecided.buckets]
    exact Buckets.sameStores_trainStale g.buckets g.stale g.cap g.rng
  refine ⟨choice, g', hchoice, hgrid', hdecided, ?_, ?_, ?_, ?_, hstores, ?_⟩
  · intro k
    rw [passes]
    exact hupToDate k
  · exact ⟨resolved, filed, hm.issues, hm.departures,
      (v.accounts hgrid hm.account).of_sameStores hstores⟩
  · rw [hkeys, hg.marked]
  · rw [← List.length_map (f := Refit.key), hkeys]
    exact Option.length_toList_le
  · intro k hk
    rw [hkeys, Option.mem_toList] at hk
    rw [hdecided.buckets]
    exact g.get_refit_of_ne hk

/-- Every call of the strategy keeps its grid, as long as sets can be fitted. -/
theorem kept_carried (v : GridView kind settings f L γ) (hf : f.Width width)
    (hcap : ∀ n, 0 < n → 0 < settings.cap.window n) (hL : L.Answers) (history : List HistoryRow)
    (first : List (Refit κ L γ)) :
    Carried kind settings history fun s waiting calls trace =>
      L.Fits (sets calls) → ∃ g, v.grid? s = some g ∧ v.Kept width first g waiting calls trace where
  reward := by
    rintro s d rest calls trace raw hone hok hs hfits
    obtain ⟨g, hgrid, hg⟩ := hs hfits
    obtain ⟨b, hb, hgrid'⟩ := v.reward hgrid hok
    exact ⟨_, hgrid', hg.reward hone hb⟩
  shown := by
    rintro s waiting calls trace x hx hs hfits
    obtain ⟨g, hgrid, hg⟩ := hs hfits
    exact ⟨g, hgrid, hg.shown hx⟩
  quiet := by
    rintro s waiting calls trace h hasking hwork hs hfits
    rw [sets_concat] at hfits
    obtain ⟨g, hgrid, hg⟩ := hs (Learner.Fits.append.mp hfits).1
    exact ⟨g, hgrid, hg.quiet hasking hwork⟩
  failed := by
    rintro h calls trace c resolved waiting e hm hasking - hs hanswer hwork hfits
    rw [sets_concat, hwork] at hfits
    obtain ⟨hbefore, hnow⟩ := Learner.Fits.append.mp hfits
    obtain ⟨g, hgrid, hg⟩ := hs hbefore
    -- a kept grid gives a decision
    obtain ⟨choice, -, hchoice, -⟩ := hg.decided hf hcap hL hm hasking hgrid hnow
    cases hanswer.symm.trans hchoice
  decided := by
    rintro h calls trace c resolved waiting choice hm hasking - hs - hwork hfits
    rw [sets_concat, hwork] at hfits
    obtain ⟨hbefore, hnow⟩ := Learner.Fits.append.mp hfits
    obtain ⟨g, hgrid, hg⟩ := hs hbefore
    obtain ⟨-, g', -, hgrid', hdecided, hupToDate, hprepared⟩ :=
      hg.decided hf hcap hL hm hasking hgrid hnow
    refine ⟨_, v.file _ _ _ hgrid', (hprepared _).file _ _ _, ?_, ?_, ?_⟩
    · exact Grid.UpToDate.file f (fun k _ => hupToDate k) _ _ _
    · rw [Filing.rewardedSince_append, hdecided.stale]
      rfl
    · have hcounted := hg.counted
      have hlength := hg.prepared.length_fits
      rw [sets_concat, hwork, List.length_append, hdecided.fits, hdecided.stale, hlength,
        List.filterMap_append, List.length_append, ← hcounted]
      rfl

/-- A new grid is kept. -/
theorem kept_build (v : GridView kind settings f L γ) (hf : f.Width width)
    (hcap : ∀ n, 0 < n → 0 < settings.cap.window n) (history : List HistoryRow) (rng : γ)
    (hfits : L.Fits (Strategy.build (L := L) kind settings history rng).fits) :
    ∃ g, v.grid? (Strategy.build kind settings history rng).strategy = some g ∧
      v.Kept width (v.firstPasses history rng) g [] [] [] := by
  obtain ⟨hok, g, hgrid, hprepared⟩ := v.prepared_build hf hcap hfits
  obtain ⟨-, houtcome, hgrid'⟩ := v.build history rng
  obtain rfl := Option.some.inj (hgrid'.symm.trans hgrid)
  refine ⟨_, hgrid, hprepared, fun k _ => ?_, rfl, rfl⟩
  -- every bucket was trained
  rw [List.flatMap_nil, List.append_nil, ← List.nil_append (v.firstPasses history rng)]
  exact Buckets.upToDate_trainEach (houtcome.symm.trans hok) k (.inl (Indexed.mem_keys k))

end GridView

/-- How a strategy with a grid of buckets refits and asks in a run, on the reports `calls`. -/
structure FreshLaws (v : GridView kind settings f L γ) (history : List HistoryRow) (rng : γ)
    (calls : List (Handling L γ)) : Prop where
  /-- The passes account for every set handed to the learner, when the strategy is built and after. -/
  built : (Strategy.build (L := L) kind settings history rng).fits =
    Refit.sets settings.cap (v.firstPasses history rng)
  handed : ∀ h ∈ calls, h.handled.work.fits = Refit.sets settings.cap (v.refits h)
  /-- Whenever the strategy is asked, it decides, by models that are up to date. -/
  asked : ∀ (n : Nat) (h : Handling L γ) (c : Controller L γ), calls[n]? = some h →
    h.asking? = some c → ∃ choice g g', (c.ask h.report h.measured).outcome = .ok choice ∧
      v.grid? c.strategy = some g ∧ v.grid? (c.ask h.report h.measured).state = some g' ∧
      v.Fresh history rng (calls.take n) h (c.ask h.report h.measured).work g g'
  /-- There are as many sets as throughputs credited, less one if a bucket was rewarded since the last
  decision. -/
  counted : (sets calls).length + (f.rewardedSince (calls.flatMap effects)).length =
    (rewards calls).length
  short : (f.rewardedSince (calls.flatMap effects)).length ≤ 1

section

variable {rng : γ} {log : TrainingLog} {warmup : Nat} {events : List Event}
  (v : GridView kind settings f L γ) (hf : f.Width width)
  (hcap : ∀ n, 0 < n → 0 < settings.cap.window n) (hL : L.Answers)
  (hrun : RunFits L kind settings history rng log warmup events)

include hf hcap hL hrun

/-- The grid is kept in every reachable state. -/
theorem GridView.kept_of_run :
    ∃ g, v.grid? ((runStart kind settings history rng log warmup).after events).strategy = some g ∧
      v.Kept width (v.firstPasses history rng) g
        ((runStart (L := L) kind settings history rng log warmup).after events).pending
        ((runStart kind settings history rng log warmup).handlings events)
        (((runStart (L := L) kind settings history rng log warmup).handlings events).flatMap
          effects) :=
  (v.kept_carried hf hcap hL history (v.firstPasses history rng)).of_run
    (fun _ => v.kept_build hf hcap history rng hrun.built) log warmup events hrun.handed

/-- What is known of the grid whenever the strategy is asked. -/
theorem GridView.kept_asked {n : Nat} {h : Handling L γ} {c : Controller L γ}
    (hn : ((runStart kind settings history rng log warmup).handlings events)[n]? = some h)
    (hasking : h.asking? = some c) :
    ∃ g resolved waiting,
      Midway kind settings history h
        (((runStart kind settings history rng log warmup).handlings events).take n) c resolved waiting ∧
      v.grid? c.strategy = some g ∧
      v.Kept width (v.firstPasses history rng) g c.pending
        (((runStart kind settings history rng log warmup).handlings events).take n)
        ((((runStart (L := L) kind settings history rng log warmup).handlings events).take n).flatMap
          effects ++ h.before.resolveEffects h.report.reward) ∧
      L.Fits (c.ask h.report h.measured).work.fits := by
  obtain ⟨⟨resolved, waiting, hm⟩, -, hkept⟩ :=
    (v.kept_carried hf hcap hL history (v.firstPasses history rng)).asked
      (fun _ => v.kept_build hf hcap history rng hrun.built) hn hasking
  obtain ⟨g, hgrid, hg⟩ := hkept (hrun.before n)
  exact ⟨g, resolved, waiting, hm, hgrid, hg, hrun.now hn hasking⟩

/-- Every run of a strategy with a grid of buckets follows these laws, if sets can be fitted and models
answer. -/
theorem GridView.freshLaws :
    FreshLaws v history rng ((runStart kind settings history rng log warmup).handlings events) where
  built := by
    rw [(v.build history rng).1]
    exact Buckets.fits_trainEach _ _ _
  handed := by
    intro h hh
    obtain ⟨n, hn⟩ := List.mem_iff_getElem?.mp hh
    rw [h.work_eq]
    cases hasking : h.asking? with
    | none =>
      rw [refits_of_quiet hasking]
      rfl
    | some c =>
      obtain ⟨g, resolved, waiting, hm, hgrid, hg, hfits⟩ := v.kept_asked hf hcap hL hrun hn hasking
      obtain ⟨choice, g', -, -, hdecided, -⟩ := hg.decided hf hcap hL hm hasking hgrid hfits
      rw [refits_of_asking hasking hgrid, ← hg.prepared.cap_eq, ← g.fits_refit]
      exact hdecided.fits
  asked := by
    intro n h c hn hasking
    obtain ⟨g, resolved, waiting, hm, hgrid, hg, hfits⟩ := v.kept_asked hf hcap hL hrun hn hasking
    obtain ⟨choice, g', hchoice, hgrid', hfresh⟩ := hg.fresh hf hcap hL hm hasking hgrid hfits
    exact ⟨choice, g, g', hchoice, hgrid, hgrid', hfresh⟩
  counted := by
    obtain ⟨g, -, hg⟩ := GridView.kept_of_run v hf hcap hL hrun
    rw [hg.marked, hg.counted, List.filterMap_flatMap]
    rfl
  short := by
    obtain ⟨g, -, hg⟩ := GridView.kept_of_run v hf hcap hL hrun
    rw [hg.marked]
    exact Option.length_toList_le

end

/-- Of the two strategies that refit late, none asks a stale model in any run, whichever learner they
have, if its models answer: whenever a decision is asked for, all models are up to date, the bucket
rewarded since the last decision is refitted and no other changes. -/
theorem fresh_of_run (hL : L.Answers) (limit : Int) (oneHot : Bool) (history : List HistoryRow)
    (rng : γ) (log : TrainingLog) (warmup : Nat) (events : List Event) :
    (RunFits L .quadratic ⟨.ofLimit limit, oneHot⟩ history rng log warmup events →
      FreshLaws (pairView ⟨.ofLimit limit, oneHot⟩ L γ) history rng
        ((runStart .quadratic ⟨.ofLimit limit, oneHot⟩ history rng log warmup).handlings events)) ∧
    (RunFits L .perAction ⟨.ofLimit limit, oneHot⟩ history rng log warmup events →
      FreshLaws (actionView ⟨.ofLimit limit, oneHot⟩ L γ) history rng
        ((runStart .perAction ⟨.ofLimit limit, oneHot⟩ history rng log warmup).handlings events)) := by
  have hcap : ∀ n, 0 < n → 0 < (ReplayCap.ofLimit limit).window n :=
    fun _ hn => ReplayCap.window_pos limit hn
  constructor
  · intro hrun
    exact (pairView _ _ γ).freshLaws width_pair hcap hL hrun
  · intro hrun
    exact (actionView _ _ γ).freshLaws (width_action oneHot) hcap hL hrun

/-- With a forest, and a report in between that fails on the log, both strategies hand over a set for each
credit and ask no stale model. -/
theorem fresh_of_faultEvents :
    (Forest.learner ⟨1, 1⟩).Answers ∧
    RunFits (Forest.learner ⟨1, 1⟩) .quadratic ⟨.ofLimit 2, true⟩ faultHistory (ChaCha.ofSeed 0)
      faultLog 1 faultEvents ∧
    RunFits (Forest.learner ⟨1, 1⟩) .perAction ⟨.ofLimit 2, true⟩ faultHistory (ChaCha.ofSeed 0)
      faultLog 1 faultEvents ∧
    FreshLaws (pairView ⟨.ofLimit 2, true⟩ (Forest.learner ⟨1, 1⟩) ChaCha) faultHistory (ChaCha.ofSeed 0)
      ((faultStart .quadratic).handlings faultEvents) ∧
    FreshLaws (actionView ⟨.ofLimit 2, true⟩ (Forest.learner ⟨1, 1⟩) ChaCha) faultHistory
      (ChaCha.ofSeed 0) ((faultStart .perAction).handlings faultEvents) := by
  have hpair : RunFits (Forest.learner ⟨1, 1⟩) .quadratic ⟨.ofLimit 2, true⟩ faultHistory
      (ChaCha.ofSeed 0) faultLog 1 faultEvents :=
    runFits_faultEvents (by decide +kernel) (by decide +kernel) (by decide +kernel)
  have haction : RunFits (Forest.learner ⟨1, 1⟩) .perAction ⟨.ofLimit 2, true⟩ faultHistory
      (ChaCha.ofSeed 0) faultLog 1 faultEvents :=
    runFits_faultEvents (by decide +kernel) (by decide +kernel) (by decide +kernel)
  have hfresh := fresh_of_run (Forest.answers ⟨1, 1⟩) 2 true faultHistory (ChaCha.ofSeed 0) faultLog 1
    faultEvents
  exact ⟨Forest.answers _, hpair, haction, hfresh.1 hpair, hfresh.2 haction⟩

end AdaptiveConsensus
