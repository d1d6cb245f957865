import AdaptiveConsensus.Episode.Controller
import AdaptiveConsensus.Proofs.Strategy.Grids

/-!
# Strategies that can decide

A decision fails only if a set cannot be fitted or a model does not answer. `Strategy.Prepared` says of
each of the six strategies what it takes that neither happens: models for all buckets with records but
the one to be refitted, and matrices of the right width.

A strategy that refits late remembers one key. A second throughput before the next decision would
overwrite it, and the first bucket would stay without a model of its records. It does not come: while a
key is remembered at most one decision waits, and a throughput needs two.

- `GridView.decided_of_prepared`: a prepared grid gives a decision, and the grid it leaves is prepared.
- `Strategy.prepared_build`, `Strategy.Prepared.recordReward`, `Strategy.Prepared.recordDecision`,
  `Strategy.Prepared.decide`: the same for every strategy, through all its calls.
-/

namespace AdaptiveConsensus

open AdaptiveConsensus.Random

variable {κ : Type} [Indexed κ] [DecidableEq κ] {L : Learner} {γ : Type} {f : Filing κ}
  {width : Nat} {cap : ReplayCap}

/-- Training on resamples readies buckets. -/
theorem readies_train [Dice γ] (hcap : ∀ n, 0 < n → 0 < cap.window n) (L : Learner) (width : Nat) :
    Buckets.Readies width fun (b : Bucket L) (rng : γ) => b.train cap rng where
  store := fun b rng => b.store_train cap rng
  ready := fun _ _ hb hfits => Bucket.ready_train hb hcap hfits

/-- Training on all records readies buckets. -/
theorem readies_trainFull [Dice γ] (L : Learner) (width : Nat) :
    Buckets.Readies width fun (b : Bucket L) (rng : γ) => b.trainFull rng where
  store := fun b rng => b.store_trainFull rng
  ready := fun _ _ hb hfits => Bucket.ready_trainFull hb hfits

/-! ## Grids -/

namespace Grid

variable {g : Grid κ L γ} {waiting : List PendingDecision}

/-- All buckets but the stale one are ready, the stale one has records, and while there is one at most
one decision waits. -/
structure Prepared (width : Nat) (cap : ReplayCap) (g : Grid κ L γ)
    (waiting : List PendingDecision) : Prop where
  ready : ∀ k, g.stale ≠ some k → (g.buckets.get k).Ready width
  marked : ∀ k, g.stale = some k → (g.buckets.get k).count ≠ 0
  short : g.stale ≠ none → waiting.length ≤ 1
  cap_eq : g.cap = cap

omit [DecidableEq κ] in
/-- While two decisions wait nothing is stale. -/
theorem Prepared.stale_eq_none {d : PendingDecision} {rest : List PendingDecision}
    (hg : g.Prepared width cap (d :: rest)) (hone : rest.length = 1) : g.stale = none := by
  cases hstale : g.stale with
  | none => rfl
  | some k =>
    have hshort := hg.short fun h => by rw [hstale] at h; cases h
    rw [List.length_cons] at hshort
    omega

omit [DecidableEq κ] in
/-- A throughput makes the bucket of its decision stale, and no other bucket was. -/
theorem Prepared.reward {d : PendingDecision} {rest : List PendingDecision} {b : Buckets κ L}
    {raw : Float} (hg : g.Prepared width cap (d :: rest)) (hone : rest.length = 1)
    (hb : f.recordReward? g.buckets d.previous d.chosen raw = some b) :
    Prepared width cap { g with buckets := b, stale := some (f.key d.previous d.chosen) } rest := by
  obtain ⟨hcount, hothers⟩ := Filing.recordReward?_eq_some hb
  have hstale := hg.stale_eq_none hone
  refine ⟨?_, ?_, fun _ => Nat.le_of_eq hone, hg.cap_eq⟩
  · intro k hk
    show (b.get k).Ready width
    rw [hothers k fun heq => hk (congrArg some heq.symm)]
    refine hg.ready k ?_
    rw [hstale]
    exact fun h => by cases h
  · intro k hk
    rw [← Option.some.inj hk]
    show (b.get _).count ≠ 0
    rw [hcount]
    exact Nat.succ_ne_zero _

/-- Filing a decision touches no record and no model. -/
theorem Prepared.file (hg : g.Prepared width cap waiting) (previous chosen : Protocol)
    (state : StateVector) :
    Prepared width cap { g with buckets := f.recordDecision g.buckets previous chosen state }
      waiting := by
  refine ⟨?_, ?_, hg.short, hg.cap_eq⟩
  · intro k hk
    refine Bucket.ready_of_count (hg.ready k hk) ?_ (Filing.count_recordDecision ..)
    exact Filing.model_recordDecision ..
  · intro k hk
    show ((f.recordDecision g.buckets previous chosen state).get k).count ≠ 0
    rw [Filing.count_recordDecision]
    exact hg.marked k hk

variable [Dice γ]

/-- Refitting succeeds and leaves all buckets ready. -/
theorem Prepared.refit (hg : g.Prepared width cap waiting)
    (hrows : ∀ k, (g.buckets.get k).store.Uniform width) (hcap : ∀ n, 0 < n → 0 < cap.window n)
    (hfits : L.Fits g.refit.fits) :
    g.refit.outcome = .ok () ∧ ∀ k, (g.refit.buckets.get k).Ready width := by
  unfold Grid.refit at hfits ⊢
  rw [hg.cap_eq] at hfits ⊢
  cases hstale : g.stale with
  | none =>
    refine ⟨rfl, fun k => hg.ready k ?_⟩
    rw [hstale]
    exact fun h => by cases h
  | some k =>
    rw [hstale] at hfits
    obtain ⟨hok, hready⟩ := Buckets.ready_trainOne (readies_train hcap L width) (hrows k) hfits
    refine ⟨hok, fun j => hready j ?_⟩
    by_cases hj : j = k
    · exact .inl hj
    · refine .inr (hg.ready j ?_)
      rw [hstale]
      exact fun h => hj (Option.some.inj h).symm

omit [DecidableEq κ] in
/-- Refitting hands one set to the learner if a bucket is stale, and none otherwise. -/
theorem Prepared.length_fits (hg : g.Prepared width cap waiting) :
    g.refit.fits.length = g.stale.toList.length := by
  unfold Grid.refit
  cases hstale : g.stale with
  | none => rfl
  | some k => exact Bucket.length_fits_train (hg.marked k hstale) _ _

end Grid

omit [DecidableEq κ] in
theorem Bucket.Ready.answered {b : Buckets κ L} {state : StateVector} {previous c : Protocol}
    (hL : L.Answers) (hf : f.Width width) (hb : (b.get (f.key previous c)).Ready width) :
    f.Answered b state previous c :=
  fun hcount => Bucket.predict_ok hL hb hcount (hf state previous c)

namespace GridView

variable [Dice γ] {kind : StrategyKind} {settings : StrategySettings}
  (v : GridView kind settings f L γ) {s : Strategy L γ} {g : Grid κ L γ}
  {waiting : List PendingDecision}

/-- A prepared grid gives a decision, and the grid that this leaves is prepared. -/
theorem decided_of_prepared (hs : v.grid? s = some g) (hg : g.Prepared width cap waiting)
    (hf : f.Width width) (hrows : ∀ k, (g.buckets.get k).store.Uniform width)
    (hcap : ∀ n, 0 < n → 0 < cap.window n) (hL : L.Answers) {state : StateVector}
    {previous : Protocol} {measured : Cost}
    (hfits : L.Fits (s.decide state previous measured).work.fits) :
    ∃ choice g', (s.decide state previous measured).outcome = .ok choice ∧
      v.grid? (s.decide state previous measured).state = some g' ∧
      g.Decided f g' state previous (s.decide state previous measured).work ∧
      g.refit.outcome = .ok () ∧ ∀ waiting', g'.Prepared width cap waiting' := by
  have hanswered : ∀ c, g.stale ≠ some (f.key previous c) →
      f.Answered g.buckets state previous c :=
    fun c hc => (hg.ready _ hc).answered hL hf
  rw [v.fits state previous measured hs hanswered] at hfits
  obtain ⟨hrefit, hready⟩ := hg.refit hrows hcap hfits
  obtain ⟨choice, g', hchoice, hgrid, hdecided⟩ := v.decide state previous measured hs hanswered
    hrefit fun c => (hready _).answered hL hf
  refine ⟨choice, g', hchoice, hgrid, hdecided, hrefit, fun waiting' => ⟨?_, ?_, ?_, ?_⟩⟩
  · intro k _
    rw [hdecided.buckets]
    exact hready k
  · intro k hk
    rw [hdecided.stale] at hk
    cases hk
  · intro hstale
    exact (hstale hdecided.stale).elim
  · exact hdecided.cap.trans hg.cap_eq

/-- The strategy is a prepared grid. -/
def Prepared (width : Nat) (s : Strategy L γ) (waiting : List PendingDecision) : Prop :=
  ∃ g, v.grid? s = some g ∧ g.Prepared width settings.cap waiting

variable {v}

/-- A new grid is prepared, and building it succeeds. -/
theorem prepared_build (hf : f.Width width) (hcap : ∀ n, 0 < n → 0 < settings.cap.window n)
    {history : List HistoryRow} {rng : γ}
    (hfits : L.Fits (Strategy.build (L := L) kind settings history rng).fits) :
    (Strategy.build (L := L) kind settings history rng).outcome = .ok () ∧
      v.Prepared width (Strategy.build kind settings history rng).strategy [] := by
  obtain ⟨hfits', houtcome, hgrid⟩ := v.build history rng
  rw [hfits'] at hfits
  have hrows := (Filing.accounts_seed (f := f) (L := L) history).uniform hf
  obtain ⟨hok, hready⟩ :=
    Buckets.ready_trainEach (readies_train hcap L width) hrows hfits
  refine ⟨houtcome.trans hok, _, hgrid, ?_, ?_, ?_, rfl⟩
  · exact fun k _ => hready k (.inl (Indexed.mem_keys k))
  · exact fun k hk => by cases hk
  · exact fun h => (h rfl).elim

theorem Prepared.reward {d : PendingDecision} {rest : List PendingDecision} {raw : Float}
    (hs : v.Prepared width s (d :: rest)) (hone : rest.length = 1)
    (hok : (s.recordReward d.previous d.chosen raw).2 = .ok ()) :
    v.Prepared width (s.recordReward d.previous d.chosen raw).1 rest := by
  obtain ⟨g, hgrid, hg⟩ := hs
  obtain ⟨b, hb, hgrid'⟩ := v.reward hgrid hok
  exact ⟨_, hgrid', hg.reward hone hb⟩

theorem Prepared.file (hs : v.Prepared width s waiting) (previous chosen : Protocol)
    (state : StateVector) : v.Prepared width (s.recordDecision previous chosen state) waiting := by
  obtain ⟨g, hgrid, hg⟩ := hs
  exact ⟨_, v.file previous chosen state hgrid, hg.file previous chosen state⟩

theorem Prepared.decide (hs : v.Prepared width s waiting) (hf : f.Width width)
    (hcap : ∀ n, 0 < n → 0 < settings.cap.window n) (hL : L.Answers) {history rows : List HistoryRow}
    {filed : List FiledDecision} (haccount : s.Accounts settings history rows filed)
    {state : StateVector} {previous : Protocol} {measured : Cost}
    (hfits : L.Fits (s.decide state previous measured).work.fits) :
    (∃ choice, (s.decide state previous measured).outcome = .ok choice) ∧
      ∀ waiting', v.Prepared width (s.decide state previous measured).state waiting' := by
  obtain ⟨g, hgrid, hg⟩ := hs
  have hrows := (v.accounts hgrid haccount).uniform hf
  obtain ⟨choice, g', hchoice, hgrid', -, -, hg'⟩ :=
    v.decided_of_prepared hgrid hg hf hrows hcap hL hfits
  exact ⟨⟨choice, hchoice⟩, fun waiting' => ⟨g', hgrid', hg' waiting'⟩⟩

end GridView

/-! ## The strategies with one model -/

/-- A matrix of at least one row, each of a width. -/
def Rectangular (width : Nat) (matrix : List Features) : Prop :=
  matrix ≠ [] ∧ ∀ row ∈ matrix, row.length = width

theorem rectangular_candidateMatrix (stateColumns : Nat) :
    Rectangular (stateColumns + 6) (candidateMatrix stateColumns) := by
  refine ⟨by simp [candidateMatrix, Protocol.pool], fun row hrow => ?_⟩
  obtain ⟨p, -, rfl⟩ := List.mem_map.mp hrow
  rw [List.length_append, List.length_replicate]
  rfl

/-- Writing the state columns keeps the width. -/
theorem Rectangular.fillState {columns : Features} {matrix : List Features}
    (h : Rectangular width matrix) (hcolumns : columns.length ≤ width) :
    Rectangular width (fillState columns matrix) := by
  refine ⟨fun hnil => h.1 (List.map_eq_nil_iff.mp hnil), fun row hrow => ?_⟩
  obtain ⟨row, hmem, rfl⟩ := List.mem_map.mp hrow
  rw [List.length_append, List.length_drop, h.2 row hmem]
  omega

/-- Of the one bucket the pass that trains it leaves, a model answers for a matrix of its width. -/
theorem Buckets.asked_of_trainOne [Dice γ] {train : Bucket L → γ → Training L γ}
    (htrain : Buckets.Readies width train) (hL : L.Answers) {b : Buckets Unit L} {rng : γ}
    (hrows : (b.get ()).store.Uniform width) (hcount : (b.get ()).count ≠ 0)
    (hfits : L.Fits (b.trainOne train () rng).fits) {matrix : List Features}
    (hmatrix : Rectangular width matrix) :
    (b.trainOne train () rng).outcome = .ok () ∧
      ∃ scores, ((b.trainOne train () rng).buckets.get ()).predictAll matrix = .ok scores := by
  obtain ⟨hok, hready⟩ := Buckets.ready_trainOne htrain hrows hfits
  have hcount' : ((b.trainOne train () rng).buckets.get ()).count ≠ 0 := by
    rwa [(Buckets.sameStores_trainOne htrain.store b () rng).count]
  obtain ⟨scores, hscores, -⟩ :=
    Bucket.predictAll_ok hL (hready () (.inl rfl)) hcount' hmatrix.1 hmatrix.2
  exact ⟨hok, scores, hscores⟩

namespace Single

variable [Dice γ] (s : Single L γ) (state : StateVector) (measured : Cost)

/-- What training the one bucket leaves. -/
def trained : Buckets.Pass Unit L γ :=
  s.buckets.trainOne (fun b rng => b.train s.cap rng) () s.rng

theorem decide_kept :
    (s.decide state measured).state.matrix = fillState state.toList s.matrix ∧
      (s.decide state measured).state.cap = s.cap := by
  simp only [decide]
  split
  · exact ⟨rfl, rfl⟩
  · split
    · exact ⟨rfl, rfl⟩
    · split <;> exact ⟨rfl, rfl⟩

theorem fits_decide (hcount : s.bucket.count ≠ 0) :
    (s.decide state measured).work.fits = s.trained.fits := by
  simp only [decide]
  split
  · next h => exact (hcount h).elim
  · split
    · rfl
    · split <;> rfl

theorem decide_ok (htrained : s.bucket.count ≠ 0 → s.trained.outcome = .ok () ∧
      ∃ scores, (s.trained.buckets.get ()).predictAll (fillState state.toList s.matrix) =
        .ok scores) :
    ∃ choice, (s.decide state measured).outcome = .ok choice := by
  simp only [decide]
  split
  · exact ⟨_, rfl⟩
  · next hcount =>
    obtain ⟨hok, scores, hscores⟩ := htrained hcount
    split
    · next e he => cases he.symm.trans hok
    · split
      · next e he => cases he.symm.trans hscores
      · exact ⟨_, rfl⟩

end Single

namespace Reduced

variable [Dice γ] (r : Reduced L γ) (state : StateVector) (measured : Cost)

/-- What training the one bucket leaves. -/
def trained : Buckets.Pass Unit L γ :=
  r.buckets.trainOne (fun b rng => b.trainFull rng) () r.rng

theorem decide_kept :
    (r.decide state measured).state.matrix = fillState [state.requestSize] r.matrix := by
  simp only [decide]
  split
  · rfl
  · split
    · rfl
    · split <;> rfl

theorem fits_decide (hcount : r.bucket.count ≠ 0) :
    (r.decide state measured).work.fits = r.trained.fits := by
  simp only [decide]
  split
  · next h => exact (hcount h).elim
  · split
    · rfl
    · split <;> rfl

theorem decide_ok (htrained : r.bucket.count ≠ 0 → r.trained.outcome = .ok () ∧
      ∃ scores, (r.trained.buckets.get ()).predictAll (fillState [state.requestSize] r.matrix) =
        .ok scores) :
    ∃ choice, (r.decide state measured).outcome = .ok choice := by
  simp only [decide]
  split
  · exact ⟨_, rfl⟩
  · next hcount =>
    obtain ⟨hok, scores, hscores⟩ := htrained hcount
    split
    · next e he => cases he.symm.trans hok
    · split
      · next e he => cases he.symm.trans hscores
      · exact ⟨_, rfl⟩

end Reduced

namespace StaticOffline

variable [Dice γ] (s : StaticOffline L γ) (state : StateVector) (previous : Protocol)
  (measured : Cost)

theorem decide_buckets : (s.decide state previous measured).state.buckets = s.buckets := by
  simp only [decide]
  split <;> rfl

theorem decide_ok (hanswered : ∀ c, pairFiling.Answered s.buckets state previous c) :
    ∃ choice, (s.decide state previous measured).outcome = .ok choice := by
  obtain ⟨scores, hscores⟩ : ∃ scores, (s.scoreAll state previous).outcome = .ok scores :=
    Filing.scores_ok (f := pairFiling) (b := s.buckets) (fun _ => lowest) (fun _ => rfl) hanswered
  simp only [decide, hscores]
  exact ⟨_, rfl⟩

end StaticOffline

/-! ## All strategies -/

theorem width_pair : pairFiling.Width 6 := fun _ _ _ => rfl

theorem width_action (oneHot : Bool) : (actionFiling oneHot).Width (if oneHot then 10 else 6) := by
  intro state previous chosen
  cases oneHot <;> rfl

theorem width_joint : jointFiling.Width 12 := fun _ _ _ => rfl

theorem width_size : sizeFiling.Width 7 := fun _ _ _ => rfl

namespace Strategy

variable [Dice γ] {settings : StrategySettings} {waiting : List PendingDecision}

/-- What a strategy needs to decide. -/
def Prepared (settings : StrategySettings) (waiting : List PendingDecision) :
    Strategy L γ → Prop
  | quadratic q => (pairView settings L γ).Prepared 6 (quadratic q) waiting
  | perAction p => (actionView settings L γ).Prepared (if settings.oneHot then 10 else 6)
      (perAction p) waiting
  | single s => s.cap = settings.cap ∧ Rectangular 12 s.matrix
  | reduced r => Rectangular 7 r.matrix
  | staticOffline s => ∀ k, (s.buckets.get k).Ready 6
  | ruleBased => True

/-- A new strategy has what it needs, and building it succeeds. -/
theorem prepared_build (kind : StrategyKind) (hcap : ∀ n, 0 < n → 0 < settings.cap.window n)
    {history : List HistoryRow} {rng : γ}
    (hfits : L.Fits (build (L := L) kind settings history rng).fits) :
    (build (L := L) kind settings history rng).outcome = .ok () ∧
      (build (L := L) kind settings history rng).strategy.Prepared settings [] := by
  cases kind with
  | quadratic => exact GridView.prepared_build width_pair hcap hfits
  | perAction => exact GridView.prepared_build (width_action _) hcap hfits
  | staticOffline =>
    have hrows := (Filing.accounts_seed (L := L) history).uniform width_pair
    obtain ⟨hok, hready⟩ := Buckets.ready_trainEach (readies_trainFull L 6) hrows hfits
    exact ⟨hok, fun k => hready k (.inl (Indexed.mem_keys k))⟩
  | single =>
    have hrows := (Filing.accounts_seed (L := L) history).uniform width_joint
    obtain ⟨hok, -⟩ := Buckets.ready_trainEach (readies_train hcap L 12) hrows hfits
    exact ⟨hok, rfl, rectangular_candidateMatrix 6⟩
  | reduced =>
    have hrows := (Filing.accounts_seed (L := L) history).uniform width_size
    obtain ⟨hok, -⟩ := Buckets.ready_trainEach (readies_trainFull L 7) hrows hfits
    exact ⟨hok, rectangular_candidateMatrix 1⟩
  | ruleBased => exact ⟨rfl, trivial⟩

theorem Prepared.recordReward {s : Strategy L γ} {d : PendingDecision}
    {rest : List PendingDecision} {raw : Float} (hs : s.Prepared settings (d :: rest))
    (hone : rest.length = 1) (hok : (s.recordReward d.previous d.chosen raw).2 = .ok ()) :
    (s.recordReward d.previous d.chosen raw).1.Prepared settings rest := by
  cases s with
  | quadratic q => exact GridView.Prepared.reward (v := pairView settings L γ) hs hone hok
  | perAction p => exact GridView.Prepared.reward (v := actionView settings L γ) hs hone hok
  | single s =>
    simp only [Strategy.recordReward, Single.recordReward]
    split <;> exact hs
  | staticOffline s => exact hs
  | reduced r => exact hs
  | ruleBased => trivial

theorem Prepared.recordDecision {s : Strategy L γ} (hs : s.Prepared settings waiting)
    (previous chosen : Protocol) (state : StateVector) :
    (s.recordDecision previous chosen state).Prepared settings waiting := by
  cases s with
  | quadratic q =>
    exact GridView.Prepared.file (v := pairView settings L γ) hs previous chosen state
  | perAction p =>
    exact GridView.Prepared.file (v := actionView settings L γ) hs previous chosen state
  | single s => exact hs
  | staticOffline s => exact hs
  | reduced r => exact hs
  | ruleBased => trivial

/-- A strategy that has what it needs decides, and then has what it needs. -/
theorem Prepared.decide {s : Strategy L γ} (hs : s.Prepared settings waiting)
    (hcap : ∀ n, 0 < n → 0 < settings.cap.window n) (hL : L.Answers) {history rows : List HistoryRow}
    {filed : List FiledDecision} (haccount : s.Accounts settings history rows filed)
    {state : StateVector} {previous : Protocol} {measured : Cost}
    (hfits : L.Fits (s.decide state previous measured).work.fits) :
    (∃ choice, (s.decide state previous measured).outcome = .ok choice) ∧
      ∀ waiting', (s.decide state previous measured).state.Prepared settings waiting' := by
  cases s with
  | quadratic q =>
    exact GridView.Prepared.decide (v := pairView settings L γ) hs width_pair hcap hL haccount hfits
  | perAction p =>
    exact GridView.Prepared.decide (v := actionView settings L γ) hs (width_action _) hcap hL
      haccount hfits
  | single s =>
    obtain ⟨hkeptMatrix, hkeptCap⟩ := s.decide_kept state measured
    have hmatrix : Rectangular 12 (fillState state.toList s.matrix) :=
      hs.2.fillState (show 6 ≤ 12 by decide)
    refine ⟨s.decide_ok state measured fun hcount => ?_, fun _ => ⟨?_, ?_⟩⟩
    · have hrows := Filing.Accounts.uniform width_joint haccount ()
      change L.Fits (s.decide state measured).work.fits at hfits
      rw [s.fits_decide state measured hcount] at hfits
      rw [Single.trained, hs.1] at hfits ⊢
      exact Buckets.asked_of_trainOne (readies_train hcap L 12) hL hrows hcount hfits hmatrix
    · exact hkeptCap.trans hs.1
    · show Rectangular 12 (s.decide state measured).state.matrix
      rwa [hkeptMatrix]
  | reduced r =>
    have hmatrix : Rectangular 7 (fillState [state.requestSize] r.matrix) :=
      Rectangular.fillState hs (show 1 ≤ 7 by decide)
    refine ⟨r.decide_ok state measured fun hcount => ?_, fun _ => ?_⟩
    · have hrows := Filing.Accounts.uniform width_size haccount ()
      change L.Fits (r.decide state measured).work.fits at hfits
      rw [r.fits_decide state measured hcount] at hfits
      exact Buckets.asked_of_trainOne (readies_trainFull L 7) hL hrows hcount hfits hmatrix
    · show Rectangular 7 (r.decide state measured).state.matrix
      rwa [r.decide_kept]
  | staticOffline s =>
    refine ⟨s.decide_ok state previous measured fun c => (hs _).answered hL width_pair, fun _ k => ?_⟩
    show ((s.decide state previous measured).state.buckets.get k).Ready 6
    rw [s.decide_buckets state previous measured]
    exact hs k
  | ruleBased => exact ⟨⟨_, rfl⟩, fun _ => trivial⟩

end Strategy

end AdaptiveConsensus
