import AdaptiveConsensus.Proofs.Strategy.Asking

/-!
# What is handed to the learner

A training pass reports the sets that it hands to the learner, and a decision reports the matrices that
it hands to models. These reports are made beside the calls of the learner. This file ties them to the
calls: the models that a pass leaves are those that the learner fitted to the reported sets, one after
the other, and a pass fails with the last of them; a reported matrix was put to the model of a bucket,
and a decision that fails otherwise fails with the answer to one of them.

- `Buckets.Handed`: sets fitted one after the other, each drawn from the store of its bucket.
- `PerAction.handed_sweep`: a sweep, which fits and asks in turn, is no exception.
- `Strategy.handsOver_build`, `Strategy.handsOver_decide`: so it is for every kind of strategy.
-/

namespace AdaptiveConsensus

open AdaptiveConsensus.Random

variable {κ : Type} [Indexed κ] {L : Learner} {γ : Type}

/-! ## Sets -/

namespace Buckets

/-- Sets are handed to the learner one after the other, each for a bucket whose records it is drawn
from. The bucket takes the model that was fitted; the first set to which none can be fitted ends it. -/
inductive Handed : Buckets κ L → List TrainingSet → Except BucketError Unit → Buckets κ L → Prop
  | nil (b : Buckets κ L) : Handed b [] (.ok ()) b
  | fitted {b b' : Buckets κ L} {k : κ} {set : TrainingSet} {seed : UInt64} {model : L.Model}
      {sets : List TrainingSet} {outcome : Except BucketError Unit}
      (hdrawn : set.DrawnFrom (b.get k).store) (hfit : L.fit set seed = .ok model)
      (hrest : Handed (b.set k { b.get k with model := some model }) sets outcome b') :
      Handed b (set :: sets) outcome b'
  | failed {b : Buckets κ L} {k : κ} {set : TrainingSet} {seed : UInt64} {cause : LearnerError}
      (hdrawn : set.DrawnFrom (b.get k).store) (hfit : L.fit set seed = .error cause) :
      Handed b [set] (.error (.fit cause)) b

variable {b b' b'' : Buckets κ L} {sets more : List TrainingSet} {outcome : Except BucketError Unit}

theorem Handed.append (h : Handed b sets (.ok ()) b') (hmore : Handed b' more outcome b'') :
    Handed b (sets ++ more) outcome b'' := by
  generalize hok : (.ok () : Except BucketError Unit) = passed at h
  induction h with
  | nil b => exact hmore
  | fitted hdrawn hfit _ ih => exact .fitted hdrawn hfit (ih hmore hok)
  | failed => cases hok

/-- Fitting models changes no store. -/
theorem Handed.sameStores [DecidableEq κ] (h : Handed b sets outcome b') : SameStores b b' := by
  induction h with
  | nil b => exact .refl b
  | @fitted b b' k set seed model sets outcome _ _ _ ih =>
    refine SameStores.trans (fun j => ?_) ih
    rw [Table.get_set]
    split
    · next hj => rw [hj]
    · rfl
  | failed => exact .refl _

/-- Each of the sets is drawn from the store of some bucket. -/
theorem Handed.drawn [DecidableEq κ] (h : Handed b sets outcome b') :
    ∀ set ∈ sets, ∃ k, set.DrawnFrom (b'.get k).store := by
  induction h with
  | nil b => exact fun set hset => (List.not_mem_nil hset).elim
  | @fitted b b' k first seed model sets outcome hdrawn hfit hrest ih =>
    intro set hset
    rcases List.mem_cons.mp hset with rfl | hset
    · have hkept := (Handed.fitted hdrawn hfit hrest).sameStores k
      exact ⟨k, by rwa [hkept]⟩
    · exact ih set hset
  | @failed b k first seed cause hdrawn hfit =>
    intro set hset
    rw [List.mem_singleton.mp hset]
    exact ⟨k, hdrawn⟩

/-- A training pass that hands over one set of its bucket's records, or leaves the bucket as it is. -/
def Hands (train : Bucket L → γ → Training L γ) : Prop :=
  ∀ b rng, (∃ rng', train b rng = ⟨b, rng', [], .ok ()⟩) ∨
    ∃ set seed rng', set.DrawnFrom b.store ∧ train b rng = b.fitTo set seed rng'

theorem hands_train [Dice γ] {cap : ReplayCap} (hcap : ∀ n, 0 < n → 0 < cap.window n) :
    Hands fun (b : Bucket L) (rng : γ) => b.train cap rng := by
  intro b rng
  by_cases hcount : b.count = 0
  · exact .inl ⟨rng, Bucket.train_of_count_eq_zero hcount cap rng⟩
  · refine .inr ⟨(b.store.sample cap rng).1, (Dice.seed (b.store.sample cap rng).2).1,
      (Dice.seed (b.store.sample cap rng).2).2, ?_, ?_⟩
    · exact Store.drawn_sample (hcap _ (Nat.pos_of_ne_zero hcount)) rng
    · exact if_neg hcount

theorem hands_trainFull [Dice γ] : Hands fun (b : Bucket L) (rng : γ) => b.trainFull rng := by
  intro b rng
  by_cases hcount : b.count = 0
  · exact .inl ⟨rng, if_pos hcount⟩
  · refine .inr ⟨b.store.fullHistory, (Dice.seed rng).1, (Dice.seed rng).2, ?_, ?_⟩
    · exact Store.drawn_fullHistory hcount
    · exact if_neg hcount

variable {train : Bucket L → γ → Training L γ}

theorem Hands.trainOne (htrain : Hands train) (b : Buckets κ L) (k : κ) (rng : γ) :
    b.Handed (b.trainOne train k rng).fits (b.trainOne train k rng).outcome
      (b.trainOne train k rng).buckets := by
  rw [Buckets.trainOne]
  rcases htrain (b.get k) rng with ⟨rng', hidle⟩ | ⟨set, seed, rng', hdrawn, hpass⟩
  · rw [hidle]
    dsimp only
    rw [Table.set_get]
    exact .nil b
  · rw [hpass, Bucket.fitTo]
    cases hfit : L.fit set seed with
    | ok model => exact .fitted hdrawn hfit (.nil _)
    | error cause =>
      dsimp only
      rw [Table.set_get]
      exact .failed hdrawn hfit

/-- Training buckets in turn hands over the sets of all that are trained. -/
theorem Hands.trainEach (htrain : Hands train) (keys : List κ) (b : Buckets κ L) (rng : γ) :
    b.Handed (trainEach train keys b rng).fits (trainEach train keys b rng).outcome
      (trainEach train keys b rng).buckets := by
  induction keys generalizing b rng with
  | nil => exact .nil b
  | cons k rest ih =>
    have hfirst := htrain.trainOne b k rng
    rw [Buckets.trainEach]
    dsimp only
    cases hok : (b.trainOne train k rng).outcome with
    | error e =>
      rw [hok] at hfirst
      dsimp only
      rw [hok]
      exact hfirst
    | ok _ =>
      rw [hok] at hfirst
      exact hfirst.append (ih _ _)

theorem handed_trainStale [Dice γ] {cap : ReplayCap} (hcap : ∀ n, 0 < n → 0 < cap.window n)
    (b : Buckets κ L) (stale : Option κ) (rng : γ) :
    b.Handed (b.trainStale stale cap rng).fits (b.trainStale stale cap rng).outcome
      (b.trainStale stale cap rng).buckets := by
  cases stale with
  | none => exact .nil b
  | some k => exact (hands_train hcap).trainOne b k rng

end Buckets

/-- Seeding fits no model. -/
theorem Filing.model_seed [DecidableEq κ] {f : Filing κ} (history : List HistoryRow) (k : κ) :
    ((f.seed (Buckets.empty : Buckets κ L) history).get k).model = none := by
  have hgeneral : ∀ (rows : List HistoryRow) (b : Bucket L),
      (rows.foldl (fun bucket row => bucket.mapStore fun s =>
        s.append (f.record row).1 (f.record row).2) b).model = b.model := by
    intro rows
    induction rows with
    | nil => exact fun b => rfl
    | cons row rest ih => exact fun b => ih _
  rw [get_seed, hgeneral, Buckets.empty, Table.get_ofFn]
  rfl

/-! ## Matrices -/

/-- What came of handing a matrix to the model of a bucket. -/
inductive Bucket.Asked (b : Bucket L) (matrix : List Features) :
    Except BucketError (List Float) → Prop
  | answered {model : L.Model} {estimates : List Float} (hmodel : b.model = some model)
      (hpredict : L.predict model matrix = .ok estimates) : Asked b matrix (.ok estimates)
  | failed {model : L.Model} {cause : LearnerError} (hmodel : b.model = some model)
      (hpredict : L.predict model matrix = .error cause) : Asked b matrix (.error (.predict cause))
  | noPrediction {model : L.Model} (hmodel : b.model = some model)
      (hpredict : L.predict model matrix = .ok []) : Asked b matrix (.error .noPrediction)
  | untrained (hmodel : b.model = none) : Asked b matrix (.error .untrained)

namespace Bucket

theorem asked_predictAll (b : Bucket L) (matrix : List Features) :
    b.Asked matrix (b.predictAll matrix) := by
  rw [predictAll]
  cases hmodel : b.model with
  | none => exact .untrained hmodel
  | some model =>
    dsimp only
    cases hpredict : L.predict model matrix with
    | ok estimates => exact .answered hmodel hpredict
    | error cause => exact .failed hmodel hpredict

theorem asked_of_predict_ok {b : Bucket L} {row : Features} {x : Float} (h : b.predict row = .ok x) :
    ∃ estimates, b.Asked [row] (.ok estimates) := by
  obtain ⟨estimates, hall, -⟩ := estimates_of_predict h
  exact ⟨estimates, hall ▸ b.asked_predictAll [row]⟩

theorem asked_of_predict_error {b : Bucket L} {row : Features} {e : BucketError}
    (h : b.predict row = .error e) : b.Asked [row] (.error e) := by
  have hasked := b.asked_predictAll [row]
  rw [predict] at h
  split at h
  · cases h
  · next hall =>
    -- an answer without estimates
    rw [hall] at hasked
    cases h
    cases hasked with
    | answered hmodel hpredict => exact .noPrediction hmodel hpredict
  · next hall =>
    rw [hall] at hasked
    cases h
    exact hasked

end Bucket

namespace Scored

/-- The matrices of a scoring that came after a training pass were put to buckets. The scoring fails
with the pass or with the answer of a bucket to one of the matrices. -/
structure Asked (bucket : Protocol → Bucket L) (passed : Except BucketError Unit) (scored : Scored) :
    Prop where
  queries : ∀ matrix ∈ scored.queries, ∃ c answer, (bucket c).Asked matrix answer ∧
    ∀ e, answer = .error e → scored.outcome = .error e
  failure : ∀ e, scored.outcome = .error e → passed = .error e ∨
    ∃ matrix ∈ scored.queries, ∃ c, (bucket c).Asked matrix (.error e)
  unfitted : ∀ e, passed = .error e → scored.outcome = .error e

variable {bucket : Protocol → Bucket L} {passed : Except BucketError Unit} {scored : Scored}
  {row : Features} {c : Protocol} {score : Float}

theorem map_cons_eq_error {e : BucketError} {rest : Except BucketError (List Float)} :
    rest.map (score :: ·) = .error e ↔ rest = .error e := by
  cases rest <;> simp [Except.map]

theorem asked_nil : nil.Asked bucket (.ok ()) where
  queries _ hmatrix := (List.not_mem_nil hmatrix).elim
  failure _ he := by cases he
  unfitted _ he := by cases he

/-- A pass that fails is followed by no scoring. -/
theorem asked_error (e : BucketError) : Asked bucket (.error e) ⟨[], .error e⟩ where
  queries _ hmatrix := (List.not_mem_nil hmatrix).elim
  failure _ he := .inl (congrArg Except.error (Except.error.inj he))
  unfitted _ he := congrArg Except.error (Except.error.inj he)

/-- A bucket that gives no estimate ends a scoring. -/
theorem asked_refused {e : BucketError} (hc : (bucket c).Asked [row] (.error e)) :
    Asked bucket (.ok ()) ⟨[[row]], .error e⟩ where
  queries matrix hmatrix := by
    rw [List.mem_singleton.mp hmatrix]
    exact ⟨c, _, hc, fun e' he => congrArg Except.error (Except.error.inj he)⟩
  failure e' he := by
    cases he
    exact .inr ⟨[row], List.mem_singleton_self _, c, hc⟩
  unfitted _ he := by cases he

theorem Asked.consUnasked (h : scored.Asked bucket passed) :
    (scored.consUnasked score).Asked bucket passed where
  queries matrix hmatrix := by
    obtain ⟨c, answer, hc, hanswer⟩ := h.queries matrix hmatrix
    exact ⟨c, answer, hc, fun e he => map_cons_eq_error.mpr (hanswer e he)⟩
  failure e he := h.failure e (map_cons_eq_error.mp he)
  unfitted e he := map_cons_eq_error.mpr (h.unfitted e he)

theorem Asked.consAsked (h : scored.Asked bucket passed) {estimates : List Float}
    (hc : (bucket c).Asked [row] (.ok estimates)) :
    (scored.consAsked row score).Asked bucket passed where
  queries matrix hmatrix := by
    rcases List.mem_cons.mp hmatrix with rfl | hmatrix
    · exact ⟨c, _, hc, fun e he => by cases he⟩
    · obtain ⟨c', answer, hc', hanswer⟩ := h.queries matrix hmatrix
      exact ⟨c', answer, hc', fun e he => map_cons_eq_error.mpr (hanswer e he)⟩
  failure e he := by
    rcases h.failure e (map_cons_eq_error.mp he) with hpassed | ⟨matrix, hmatrix, hrefused⟩
    · exact .inl hpassed
    · exact .inr ⟨matrix, List.mem_cons_of_mem _ hmatrix, hrefused⟩
  unfitted e he := map_cons_eq_error.mpr (h.unfitted e he)

/-- Scoring candidates by the buckets that a pass left asks nobody else. -/
theorem asked_ofCandidates (bucket : Protocol → Bucket L) (row : Features)
    (unknown : Protocol → Float) (candidates : List Protocol) :
    (ofCandidates bucket row unknown candidates).Asked bucket (.ok ()) := by
  induction candidates with
  | nil => exact asked_nil
  | cons c rest ih =>
    rw [ofCandidates]
    split
    · exact ih.consUnasked
    · split
      · next e hrefused => exact asked_refused (Bucket.asked_of_predict_error hrefused)
      · next score hscore =>
        obtain ⟨estimates, hasked⟩ := Bucket.asked_of_predict_ok hscore
        exact ih.consAsked hasked

/-- So does scoring all of them at once. -/
theorem asked_scoreJointly (b : Bucket L) (matrix : List Features) :
    (b.scoreJointly matrix).Asked (fun _ => b) (.ok ()) where
  queries matrix' hmatrix := by
    rw [List.mem_singleton.mp hmatrix]
    exact ⟨.pbft, _, b.asked_predictAll matrix, fun e he => he⟩
  failure e he := by
    refine .inr ⟨matrix, List.mem_singleton_self _, .pbft, ?_⟩
    rw [← he]
    exact b.asked_predictAll matrix
  unfitted _ he := by cases he

/-- A scoring that is left out if the pass before it fails. -/
def after (passed : Except BucketError Unit) (scored : Scored) : Scored :=
  match passed with
  | .error e => ⟨[], .error e⟩
  | .ok () => scored

theorem Asked.after (h : scored.Asked bucket (.ok ())) (passed : Except BucketError Unit) :
    (scored.after passed).Asked bucket passed := by
  rcases passed with e | ⟨⟩
  · exact asked_error e
  · exact h

end Scored

/-- A sweep fits and asks in turn. A bucket that was asked is left as it was then. -/
theorem PerAction.handed_sweep [Dice γ] (stale : Option Protocol) {cap : ReplayCap}
    (hcap : ∀ n, 0 < n → 0 < cap.window n) (row : Features) {candidates : List Protocol}
    (hnodup : candidates.Nodup) (b : Buckets Protocol L) (rng : γ) :
    ∃ passed, b.Handed (sweep stale cap row candidates b rng).fits passed
        (sweep stale cap row candidates b rng).buckets ∧
      (sweep stale cap row candidates b rng).scored.Asked
        (sweep stale cap row candidates b rng).buckets.get passed := by
  induction candidates generalizing b rng with
  | nil => exact ⟨.ok (), .nil b, Scored.asked_nil⟩
  | cons c rest ih =>
    obtain ⟨hnot, hnodup'⟩ := List.nodup_cons.mp hnodup
    have hpass := Buckets.handed_trainStale hcap b (stale.filter (· = c)) rng
    rw [sweep]
    split
    · obtain ⟨passed, hhanded, hasked⟩ := ih hnodup' b rng
      exact ⟨passed, hhanded, hasked.consUnasked⟩
    · dsimp only
      split
      · next e he =>
        rw [he] at hpass
        exact ⟨.error e, hpass, Scored.asked_error e⟩
      · next hok =>
        rw [hok] at hpass
        split
        · next e hrefused =>
          exact ⟨.ok (), hpass, Scored.asked_refused (Bucket.asked_of_predict_error hrefused)⟩
        · next score hscore =>
          obtain ⟨estimates, hc⟩ := Bucket.asked_of_predict_ok hscore
          let pass := b.trainStale (stale.filter (· = c)) cap rng
          obtain ⟨passed, hhanded, hasked⟩ := ih hnodup' pass.buckets pass.rng
          have hkept : ((sweep stale cap row rest pass.buckets pass.rng).buckets.get c).Asked [row]
              (.ok estimates) := by
            rw [get_sweep hnot]
            exact hc
          exact ⟨passed, hpass.append hhanded, hasked.consAsked hkept⟩

/-! ## Decisions -/

namespace Decided

/-- A decision shows the matrices of a scoring, and fails exactly as the scoring does. -/
structure Reports {σ : Type} (d : Decided σ) (scored : Scored) : Prop where
  queries : d.work.queries = scored.queries
  failure : ∀ e, d.outcome = .error e ↔ scored.outcome = .error e

theorem Reports.map {σ τ : Type} {d : Decided σ} {scored : Scored} (h : d.Reports scored)
    (f : σ → τ) : (d.map f).Reports scored :=
  ⟨h.queries, h.failure⟩

/-- A decision fitted the sets that it reports, which led from some buckets to others, and reports a
scoring by buckets that were asked. -/
def Hands {σ : Type} (d : Decided σ) (b b' : Buckets κ L) (bucket : Protocol → Bucket L) : Prop :=
  ∃ passed scored, b.Handed d.work.fits passed b' ∧ scored.Asked bucket passed ∧ d.Reports scored

/-- A decision that trained the one bucket and had it score all candidates, if it could be trained. -/
theorem hands_jointly {σ : Type} {d : Decided σ} {b b' : Buckets Unit L} {pass : Buckets.Pass Unit L γ}
    {matrix : List Features} (hpass : b.Handed pass.fits pass.outcome pass.buckets)
    (hfits : d.work.fits = pass.fits) (hbuckets : b' = pass.buckets)
    (hreports : d.Reports (((pass.buckets.get ()).scoreJointly matrix).after pass.outcome)) :
    d.Hands b b' fun _ => b'.get () := by
  refine ⟨pass.outcome, _, ?_, ?_, hreports⟩
  · rwa [hfits, hbuckets]
  · rw [hbuckets]
    exact (Scored.asked_scoreJointly ..).after _

/-- A decision drawn without training or asking anything. -/
theorem hands_of_idle {σ : Type} {d : Decided σ} {b b' : Buckets κ L} {bucket : Protocol → Bucket L}
    (hfits : d.work.fits = []) (hbuckets : b' = b) (hreports : d.Reports Scored.nil) :
    d.Hands b b' bucket := by
  refine ⟨.ok (), Scored.nil, ?_, Scored.asked_nil, hreports⟩
  rw [hfits, hbuckets]
  exact .nil b

end Decided

section

variable [Dice γ] (state : StateVector) (previous : Protocol) (measured : Cost)

/-- The pairwise strategy refits, then scores. -/
theorem Quadratic.hands_decide (q : Quadratic L γ) (hcap : ∀ n, 0 < n → 0 < q.cap.window n) :
    (q.decide state previous measured).Hands q.buckets (q.decide state previous measured).state.buckets
      fun c => (q.decide state previous measured).state.buckets.get (previous, c) := by
  have hpass : q.buckets.Handed q.grid.refit.fits q.refresh.2.2 q.refresh.1.buckets :=
    Buckets.handed_trainStale hcap q.buckets q.stale q.rng
  obtain ⟨hbuckets, -⟩ := q.work_decide state previous measured
  refine ⟨q.refresh.2.2, (q.refresh.1.scoreAll state previous).after q.refresh.2.2, ?_, ?_, ?_⟩
  · rwa [q.fits_decide, hbuckets]
  · rw [hbuckets]
    exact (Scored.asked_ofCandidates ..).after _
  · rw [decide]
    rcases q.refresh with ⟨fresh, fits, e | ⟨⟩⟩
    · exact ⟨rfl, fun e' => by simp [Scored.after]⟩
    · dsimp only [Scored.after]
      cases hscored : (fresh.scoreAll state previous).outcome with
      | error e => exact ⟨rfl, fun e' => by simp [hscored]⟩
      | ok scores => exact ⟨rfl, fun e' => by simp [hscored]⟩

/-- The frozen one only scores. -/
theorem StaticOffline.hands_decide (s : StaticOffline L γ) :
    (s.decide state previous measured).Hands s.buckets (s.decide state previous measured).state.buckets
      fun c => (s.decide state previous measured).state.buckets.get (previous, c) := by
  refine ⟨.ok (), s.scoreAll state previous, ?_, ?_, ?_⟩
  · have hfits : (s.decide state previous measured).work.fits = [] := by
      rw [decide]
      dsimp only
      split <;> rfl
    rw [hfits, s.decide_buckets]
    exact .nil _
  · rw [s.decide_buckets]
    exact Scored.asked_ofCandidates ..
  · rw [decide]
    dsimp only
    cases hscored : (s.scoreAll state previous).outcome with
    | error e => exact ⟨rfl, fun e' => by simp [hscored]⟩
    | ok scores => exact ⟨rfl, fun e' => by simp [hscored]⟩

/-- The strategy with one model per protocol sweeps. -/
theorem PerAction.hands_decide (p : PerAction L γ) (hcap : ∀ n, 0 < n → 0 < p.cap.window n) :
    (p.decide state previous measured).Hands p.buckets (p.decide state previous measured).state.buckets
      (p.decide state previous measured).state.buckets.get := by
  obtain ⟨hbuckets, hfits, -⟩ := p.work_decide state previous measured
  obtain ⟨passed, hhanded, hasked⟩ := PerAction.handed_sweep p.stale hcap
    (stateRow p.oneHot state previous) (by decide : Protocol.pool.Nodup) p.buckets p.rng
  refine ⟨passed, (p.swept state previous).scored, ?_, ?_, ?_⟩
  · rw [hfits, hbuckets]
    exact hhanded
  · rw [hbuckets]
    exact hasked
  · rw [decide, swept]
    dsimp only
    cases hscored : (sweep p.stale p.cap (stateRow p.oneHot state previous) Protocol.pool p.buckets
      p.rng).scored.outcome with
    | error e => exact ⟨rfl, fun e' => by simp [hscored]⟩
    | ok scores => exact ⟨rfl, fun e' => by simp [hscored]⟩

/-- With records, the strategy with one model refits and then scores. -/
theorem Single.reports_decide (s : Single L γ) (hcount : s.bucket.count ≠ 0) :
    (s.decide state measured).state.buckets = s.trained.buckets ∧
      (s.decide state measured).Reports
        (((s.trained.buckets.get ()).scoreJointly (fillState state.toList s.matrix)).after
          s.trained.outcome) := by
  simp only [decide]
  rw [if_neg (show ¬ ({ s with matrix := fillState state.toList s.matrix } : Single L γ).bucket.count = 0
    from hcount)]
  rw [trained, bucket]
  split
  · next e he =>
    rw [he]
    exact ⟨rfl, rfl, fun e' => by simp [Scored.after]⟩
  · next hok =>
    rw [hok]
    split <;> next hpredict =>
      exact ⟨rfl, rfl, fun e' => by simp [Scored.after, Bucket.scoreJointly, hpredict]⟩

/-- Without records it does neither. -/
theorem Single.hands_decide (s : Single L γ) (hcap : ∀ n, 0 < n → 0 < s.cap.window n) :
    (s.decide state measured).Hands s.buckets (s.decide state measured).state.buckets
      fun _ => (s.decide state measured).state.buckets.get () := by
  by_cases hcount : s.bucket.count = 0
  · have hidle : s.decide state measured =
        ⟨{ s with matrix := fillState state.toList s.matrix, rng := (pick Protocol.pool s.rng).2 },
          Work.none, .ok ⟨(pick Protocol.pool s.rng).1.getD .pbft, Cost.free⟩⟩ := if_pos hcount
    rw [hidle]
    exact Decided.hands_of_idle rfl rfl ⟨rfl, fun e => by simp [Scored.nil]⟩
  · obtain ⟨hbuckets, hreports⟩ := s.reports_decide state measured hcount
    exact Decided.hands_jointly ((Buckets.hands_train hcap).trainOne s.buckets () s.rng)
      (s.fits_decide state measured hcount) hbuckets hreports

/-- The reduced one does the same. -/
theorem Reduced.reports_decide (r : Reduced L γ) (hcount : r.bucket.count ≠ 0) :
    (r.decide state measured).state.buckets = r.trained.buckets ∧
      (r.decide state measured).Reports
        (((r.trained.buckets.get ()).scoreJointly (fillState [state.requestSize] r.matrix)).after
          r.trained.outcome) := by
  simp only [decide]
  rw [if_neg (show ¬ ({ r with matrix := fillState [state.requestSize] r.matrix } :
    Reduced L γ).bucket.count = 0 from hcount)]
  rw [trained, bucket]
  split
  · next e he =>
    rw [he]
    exact ⟨rfl, rfl, fun e' => by simp [Scored.after]⟩
  · next hok =>
    rw [hok]
    split <;> next hpredict =>
      exact ⟨rfl, rfl, fun e' => by simp [Scored.after, Bucket.scoreJointly, hpredict]⟩

theorem Reduced.hands_decide (r : Reduced L γ) :
    (r.decide state measured).Hands r.buckets (r.decide state measured).state.buckets
      fun _ => (r.decide state measured).state.buckets.get () := by
  by_cases hcount : r.bucket.count = 0
  · have hidle : r.decide state measured =
        ⟨{ r with matrix := fillState [state.requestSize] r.matrix, rng := (pick Protocol.pool r.rng).2 },
          Work.none, .ok ⟨(pick Protocol.pool r.rng).1.getD .pbft, Cost.free⟩⟩ := if_pos hcount
    rw [hidle]
    exact Decided.hands_of_idle rfl rfl ⟨rfl, fun e => by simp [Scored.nil]⟩
  · obtain ⟨hbuckets, hreports⟩ := r.reports_decide state measured hcount
    exact Decided.hands_jointly (Buckets.hands_trainFull.trainOne r.buckets () r.rng)
      (r.fits_decide state measured hcount) hbuckets hreports

end

namespace Strategy

/-- Sets were handed to the learner, and the models of a strategy replaced, until it was left as
another. -/
def Handed (s : Strategy L γ) (sets : List TrainingSet) (outcome : Except BucketError Unit)
    (s' : Strategy L γ) : Prop :=
  match s, s' with
  | quadratic q, quadratic q' => q.buckets.Handed sets outcome q'.buckets
  | staticOffline s, staticOffline s' => s.buckets.Handed sets outcome s'.buckets
  | perAction p, perAction p' => p.buckets.Handed sets outcome p'.buckets
  | single s, single s' => s.buckets.Handed sets outcome s'.buckets
  | reduced r, reduced r' => r.buckets.Handed sets outcome r'.buckets
  | ruleBased, ruleBased => sets = [] ∧ outcome = .ok ()
  | _, _ => False

/-- Fitting models changes no store. -/
theorem Handed.store_eq {s s' : Strategy L γ} {sets : List TrainingSet}
    {outcome : Except BucketError Unit} (h : s.Handed sets outcome s') (previous chosen : Protocol) :
    (s'.bucketAt previous chosen).store = (s.bucketAt previous chosen).store := by
  cases s <;> cases s' <;> first
    | exact Buckets.Handed.sameStores h _
    | exact (show False from h).elim
    | rfl

/-- Each of the sets is drawn from a store of the strategy. -/
theorem Handed.drawn {s s' : Strategy L γ} {sets : List TrainingSet}
    {outcome : Except BucketError Unit} (h : s.Handed sets outcome s') :
    ∀ set ∈ sets, ∃ previous chosen, set.DrawnFrom (s'.bucketAt previous chosen).store := by
  intro set hset
  cases s <;> cases s' <;> try exact (show False from h).elim
  case quadratic.quadratic q q' =>
    obtain ⟨⟨p, c⟩, hdrawn⟩ := Buckets.Handed.drawn h set hset
    exact ⟨p, c, hdrawn⟩
  case staticOffline.staticOffline s s' =>
    obtain ⟨⟨p, c⟩, hdrawn⟩ := Buckets.Handed.drawn h set hset
    exact ⟨p, c, hdrawn⟩
  case perAction.perAction p p' =>
    obtain ⟨c, hdrawn⟩ := Buckets.Handed.drawn h set hset
    exact ⟨c, c, hdrawn⟩
  case single.single s s' =>
    obtain ⟨⟨⟩, hdrawn⟩ := Buckets.Handed.drawn h set hset
    exact ⟨.pbft, .pbft, hdrawn⟩
  case reduced.reduced r r' =>
    obtain ⟨⟨⟩, hdrawn⟩ := Buckets.Handed.drawn h set hset
    exact ⟨.pbft, .pbft, hdrawn⟩
  case ruleBased.ruleBased =>
    rw [h.1] at hset
    cases hset

/-- The score of a candidate whose bucket has records is an estimate of the bucket for one of the
matrices. -/
def Scores (previous : Protocol) (d : Decided (Strategy L γ)) : Prop :=
  ∀ (scores : List Float) (c : Protocol) (x : Float), d.work.scores = some scores →
    scores[c.index.val]? = some x → (d.state.bucketAt previous c).count ≠ 0 →
    ∃ matrix ∈ d.work.queries, ∃ estimates,
      (d.state.bucketAt previous c).Asked matrix (.ok estimates) ∧ x ∈ estimates

/-- What a decision reports beside its calls of the learner is what it handed over: the sets were fitted
in turn, with the outcome `passed`; each matrix was put to the model of a bucket; the scores are what the
buckets answered; and the decision fails with the first set that could not be fitted or with the answer
of a bucket to one of the matrices. -/
structure HandsOver (s : Strategy L γ) (previous : Protocol) (passed : Except BucketError Unit)
    (d : Decided (Strategy L γ)) : Prop where
  fits : s.Handed d.work.fits passed d.state
  queries : ∀ matrix ∈ d.work.queries, ∃ c answer, (d.state.bucketAt previous c).Asked matrix answer ∧
    ∀ e, answer = .error e → d.outcome = .error e
  failure : ∀ e, d.outcome = .error e → passed = .error e ∨
    ∃ matrix ∈ d.work.queries, ∃ c, (d.state.bucketAt previous c).Asked matrix (.error e)
  unfitted : ∀ e, passed = .error e → d.outcome = .error e
  scores : Scores previous d

theorem HandsOver.of_scored {s : Strategy L γ} {previous : Protocol}
    {passed : Except BucketError Unit} {d : Decided (Strategy L γ)} {scored : Scored}
    (hhanded : s.Handed d.work.fits passed d.state)
    (hasked : scored.Asked (d.state.bucketAt previous) passed) (hreports : d.Reports scored)
    (hscores : Scores previous d) : s.HandsOver previous passed d where
  fits := hhanded
  queries matrix hmatrix := by
    obtain ⟨c, answer, hc, hanswer⟩ := hasked.queries matrix (hreports.queries ▸ hmatrix)
    exact ⟨c, answer, hc, fun e he => (hreports.failure e).mpr (hanswer e he)⟩
  failure e he := by
    rw [hreports.queries]
    exact hasked.failure e ((hreports.failure e).mp he)
  unfitted e he := (hreports.failure e).mpr (hasked.unfitted e he)
  scores := hscores

end Strategy

/-- The models of a new strategy are those that the learner fitted to the reported sets, one after the
other, for buckets that had none. -/
def Built.HandsOver (built : Built L γ) : Prop :=
  ∃ seeded : Strategy L γ, (∀ previous chosen, (seeded.bucketAt previous chosen).model = none) ∧
    seeded.Handed built.fits built.outcome built.strategy

namespace Strategy

variable [Dice γ] {settings : StrategySettings} {s : Strategy L γ}

/-- Whatever a decision reports, it handed over, whether or not it succeeds. -/
theorem handsOver_decide (h : s.Keeps settings) (hcap : ∀ n, 0 < n → 0 < settings.cap.window n)
    (state : StateVector) (previous : Protocol) (measured : Cost) :
    ∃ passed, s.HandsOver previous passed (s.decide state previous measured) := by
  have hscores : Scores previous (s.decide state previous measured) := by
    intro scores c x hscored hx hcount
    obtain ⟨hmatrix, estimates, hall, hestimate⟩ := scored_decide h hscored hx hcount
    have hasked := Bucket.asked_predictAll ((s.decide state previous measured).state.bucketAt previous c)
      (s.kind.asked settings state previous c)
    rw [hall] at hasked
    exact ⟨_, hmatrix, estimates, hasked, List.mem_of_getElem? hestimate⟩
  cases s with
  | quadratic q =>
    obtain ⟨passed, scored, hhanded, hasked, hreports⟩ :=
      q.hands_decide state previous measured (by rwa [show q.cap = _ from h])
    exact ⟨passed, .of_scored hhanded hasked (hreports.map quadratic) hscores⟩
  | staticOffline s =>
    obtain ⟨passed, scored, hhanded, hasked, hreports⟩ := s.hands_decide state previous measured
    exact ⟨passed, .of_scored hhanded hasked (hreports.map staticOffline) hscores⟩
  | perAction p =>
    obtain ⟨passed, scored, hhanded, hasked, hreports⟩ :=
      p.hands_decide state previous measured (by rwa [h.1])
    exact ⟨passed, .of_scored hhanded hasked (hreports.map perAction) hscores⟩
  | single s =>
    obtain ⟨passed, scored, hhanded, hasked, hreports⟩ :=
      s.hands_decide state measured (by rwa [h.1])
    exact ⟨passed, .of_scored hhanded hasked (hreports.map single) hscores⟩
  | reduced r =>
    obtain ⟨passed, scored, hhanded, hasked, hreports⟩ := r.hands_decide state measured
    exact ⟨passed, .of_scored hhanded hasked (hreports.map reduced) hscores⟩
  | ruleBased =>
    refine ⟨.ok (), .of_scored ⟨rfl, rfl⟩ Scored.asked_nil ⟨rfl, fun e => ?_⟩ hscores⟩
    simp [decide, Scored.nil]

/-- Whatever a new strategy reports, it handed over. -/
theorem handsOver_build (kind : StrategyKind) (hcap : ∀ n, 0 < n → 0 < settings.cap.window n)
    (history : List HistoryRow) (rng : γ) :
    (build (L := L) kind settings history rng).HandsOver := by
  cases kind with
  | quadratic =>
    let seeded := pairFiling.seed (Buckets.empty : Buckets _ L) history
    refine ⟨quadratic ⟨seeded, Table.ofFn fun _ => false, none, settings.cap, rng⟩, ?_, ?_⟩
    · exact fun previous chosen => Filing.model_seed history (previous, chosen)
    · exact (Buckets.hands_train hcap).trainEach _ seeded rng
  | staticOffline =>
    let seeded := pairFiling.seed (Buckets.empty : Buckets _ L) history
    refine ⟨staticOffline ⟨seeded, rng⟩, ?_, ?_⟩
    · exact fun previous chosen => Filing.model_seed history (previous, chosen)
    · exact Buckets.hands_trainFull.trainEach _ seeded rng
  | perAction =>
    let seeded := (actionFiling settings.oneHot).seed (Buckets.empty : Buckets _ L) history
    refine ⟨perAction ⟨seeded, settings.oneHot, none, settings.cap, rng⟩, ?_, ?_⟩
    · exact fun _ chosen => Filing.model_seed history chosen
    · exact (Buckets.hands_train hcap).trainEach _ seeded rng
  | single =>
    let seeded := jointFiling.seed (Buckets.empty : Buckets _ L) history
    refine ⟨single ⟨seeded, candidateMatrix StateVector.width, settings.cap, rng⟩, ?_, ?_⟩
    · exact fun _ _ => Filing.model_seed history ()
    · exact (Buckets.hands_train hcap).trainEach _ seeded rng
  | reduced =>
    let seeded := sizeFiling.seed (Buckets.empty : Buckets _ L) history
    refine ⟨reduced ⟨seeded, candidateMatrix 1, rng⟩, ?_, ?_⟩
    · exact fun _ _ => Filing.model_seed history ()
    · exact Buckets.hands_trainFull.trainEach _ seeded rng
  | ruleBased => exact ⟨ruleBased, fun _ _ => rfl, rfl, rfl⟩

end Strategy

end AdaptiveConsensus
