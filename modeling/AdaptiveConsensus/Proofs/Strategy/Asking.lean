import AdaptiveConsensus.Proofs.Strategy.Calls
import AdaptiveConsensus.Proofs.Strategy.Readiness
import AdaptiveConsensus.Proofs.Strategy.Refits

/-!
# What a decision asks

Candidates are scored by models, each asked about the candidate's row. Two strategies keep a matrix of
all candidates' rows, and write over its state columns at each decision. This file follows the rows from
there to the scores, through decisions that fail as well as through those that succeed.

- `Strategy.Keeps`, `Strategy.keeps_of_calls`: the options of a strategy never change, and neither does
  its matrix but for the state columns.
- `Strategy.asked_decide`: what models are asked about, whether or not they answer.
- `PerAction.tells_sweep`: a sweep that refits on its way scores by the buckets it leaves.
- `Strategy.scored_decide`: a candidate's score is the estimate of its bucket for its own row.
-/

namespace AdaptiveConsensus

open AdaptiveConsensus.Random

variable {L : Learner} {γ : Type}

/-! ## The matrix of the candidates -/

/-- One row for each candidate: some state columns and the candidate's encoding. -/
def candidateRows (columns : Features) : List Features :=
  Protocol.pool.map fun c => columns ++ c.oneHot

/-- Of the state columns that are written over nothing is left. -/
theorem fillState_candidateRows {columns old : Features} (h : old.length = columns.length) :
    fillState columns (candidateRows old) = candidateRows columns := by
  rw [fillState, candidateRows, List.map_map]
  refine List.map_congr_left fun c _ => ?_
  show columns ++ (old ++ c.oneHot).drop columns.length = _
  rw [← h, List.drop_left]

namespace Strategy

/-- What a strategy keeps through all calls: its options, and of its matrix all but the state
columns. -/
def Keeps (settings : StrategySettings) : Strategy L γ → Prop
  | quadratic q => q.cap = settings.cap
  | perAction p => p.cap = settings.cap ∧ p.oneHot = settings.oneHot
  | single s => s.cap = settings.cap ∧
      ∃ columns, columns.length = StateVector.width ∧ s.matrix = candidateRows columns
  | reduced r => ∃ columns, columns.length = 1 ∧ r.matrix = candidateRows columns
  | staticOffline _ | ruleBased => True

variable {settings : StrategySettings} {s : Strategy L γ}

theorem keeps_build [Dice γ] (kind : StrategyKind) (settings : StrategySettings)
    (history : List HistoryRow) (rng : γ) :
    (build (L := L) kind settings history rng).strategy.Keeps settings := by
  cases kind with
  | quadratic => exact rfl
  | perAction => exact ⟨rfl, rfl⟩
  | single => exact ⟨rfl, List.replicate StateVector.width 0.0, List.length_replicate, rfl⟩
  | reduced => exact ⟨List.replicate 1 0.0, List.length_replicate, rfl⟩
  | staticOffline => trivial
  | ruleBased => trivial

theorem Keeps.recordReward (h : s.Keeps settings) (previous chosen : Protocol) (raw : Float) :
    (s.recordReward previous chosen raw).1.Keeps settings := by
  cases s with
  | quadratic q =>
    simp only [Strategy.recordReward, Quadratic.recordReward]
    split <;> exact h
  | perAction p =>
    simp only [Strategy.recordReward, PerAction.recordReward]
    split <;> exact h
  | single s =>
    simp only [Strategy.recordReward, Single.recordReward]
    split <;> exact h
  | staticOffline s => exact h
  | reduced r => exact h
  | ruleBased => exact h

theorem Keeps.recordDecision (h : s.Keeps settings) (previous chosen : Protocol)
    (state : StateVector) : (s.recordDecision previous chosen state).Keeps settings := by
  cases s <;> exact h

end Strategy

theorem Quadratic.cap_decide [Dice γ] (q : Quadratic L γ) (state : StateVector)
    (previous : Protocol) (measured : Cost) :
    (q.decide state previous measured).state.cap = q.cap := by
  simp only [Quadratic.decide, Quadratic.refresh_eq]
  split
  · rfl
  · split
    · rfl
    · simp only [Quadratic.hold]
      split <;> rfl

theorem PerAction.cap_decide [Dice γ] (p : PerAction L γ) (state : StateVector)
    (previous : Protocol) (measured : Cost) :
    (p.decide state previous measured).state.cap = p.cap := by
  simp only [PerAction.decide]
  split <;> rfl

namespace Strategy

variable [Dice γ] {settings : StrategySettings} {s : Strategy L γ}

theorem Keeps.decide (h : s.Keeps settings) (state : StateVector) (previous : Protocol)
    (measured : Cost) : (s.decide state previous measured).state.Keeps settings := by
  cases s with
  | quadratic q => exact (q.cap_decide state previous measured).trans h
  | perAction p =>
    exact ⟨(p.cap_decide state previous measured).trans h.1,
      (p.oneHot_decide state previous measured).trans h.2⟩
  | single s =>
    obtain ⟨hcap, columns, hcolumns, hmatrix⟩ := h
    obtain ⟨hkeptMatrix, hkeptCap⟩ := s.decide_kept state measured
    refine ⟨hkeptCap.trans hcap, state.toList, state.length_toList, hkeptMatrix.trans ?_⟩
    rw [hmatrix, fillState_candidateRows hcolumns]
  | reduced r =>
    obtain ⟨columns, hcolumns, hmatrix⟩ := h
    refine ⟨[state.requestSize], rfl, (r.decide_kept state measured).trans ?_⟩
    rw [hmatrix, fillState_candidateRows hcolumns]
  | staticOffline s => exact h
  | ruleBased => exact h

/-- Options and matrices are as they were built, after any calls. -/
theorem keeps_of_calls (kind : StrategyKind) (settings : StrategySettings)
    (history : List HistoryRow) (rng : γ) (calls : List Call) :
    ((build (L := L) kind settings history rng).strategy.after calls).Keeps settings := by
  refine call_induction (fun s c hs => ?_) (keeps_build kind settings history rng) calls
  cases c with
  | reward previous chosen raw => exact hs.recordReward previous chosen raw
  | file d => exact hs.recordDecision d.previous d.chosen d.state
  | lookUp previous chosen => exact hs
  | decide state previous measured => exact hs.decide state previous measured

theorem kind_after (s : Strategy L γ) (calls : List Call) : (s.after calls).kind = s.kind := by
  refine call_induction (P := fun t => t.kind = s.kind) (fun t c ht => ?_) rfl calls
  cases c with
  | reward previous chosen raw => exact (t.kind_recordReward previous chosen raw).trans ht
  | file d => exact (t.kind_recordDecision d.previous d.chosen d.state).trans ht
  | lookUp previous chosen => exact ht
  | decide state previous measured => exact (t.kind_decide state previous measured).trans ht

end Strategy

/-! ## What a decision asks -/

namespace Work

/-- The work shows the queries and the scores of a scoring, or that it never came to one. -/
def Shows (work : Work) (scored : Scored) : Prop :=
  (work.queries = [] ∧ work.scores = .none) ∨
    (work.queries = scored.queries ∧ work.scores = scored.outcome.toOption)

variable {work : Work} {scored : Scored}

theorem Shows.mem_queries (h : work.Shows scored) {matrix : List Features}
    (hmatrix : matrix ∈ work.queries) : matrix ∈ scored.queries := by
  rcases h with ⟨hnone, -⟩ | ⟨hqueries, -⟩
  · rw [hnone] at hmatrix
    cases hmatrix
  · rwa [hqueries] at hmatrix

/-- Scores are shown only of a scoring that succeeded. -/
theorem Shows.of_scores (h : work.Shows scored) {scores : List Float}
    (hscores : work.scores = some scores) :
    work.queries = scored.queries ∧ scored.outcome = .ok scores := by
  rcases h with ⟨-, hnone⟩ | ⟨hqueries, hscored⟩
  · cases hnone.symm.trans hscores
  · refine ⟨hqueries, ?_⟩
    rw [hscores] at hscored
    cases houtcome : scored.outcome with
    | error e =>
      rw [houtcome] at hscored
      cases hscored
    | ok scores' =>
      rw [houtcome] at hscored
      exact congrArg Except.ok (Option.some.inj hscored).symm

end Work

/-- Scoring all candidates at once, by the model of one bucket. -/
def Bucket.scoreJointly (b : Bucket L) (matrix : List Features) : Scored :=
  ⟨[matrix], b.predictAll matrix⟩

section

variable [Dice γ] (state : StateVector) (previous : Protocol) (measured : Cost)

/-- The pairwise strategy scores by the buckets that its refit leaves. -/
theorem Quadratic.work_decide (q : Quadratic L γ) :
    (q.decide state previous measured).state.buckets = q.refresh.1.buckets ∧
      (q.decide state previous measured).work.Shows (q.refresh.1.scoreAll state previous) := by
  rw [decide]
  rcases q.refresh with ⟨fresh, fits, e | ⟨⟩⟩
  · exact ⟨rfl, .inl ⟨rfl, rfl⟩⟩
  · dsimp only
    cases hscored : (fresh.scoreAll state previous).outcome with
    | error e => exact ⟨rfl, .inr ⟨rfl, by rw [hscored]; rfl⟩⟩
    | ok scores =>
      refine ⟨?_, .inr ⟨rfl, by rw [hscored]; rfl⟩⟩
      exact congrArg Grid.buckets (grid_hold _ _ _)

theorem StaticOffline.work_decide (s : StaticOffline L γ) :
    (s.decide state previous measured).work.Shows (s.scoreAll state previous) := by
  rw [decide]
  dsimp only
  cases hscored : (s.scoreAll state previous).outcome <;> exact .inr ⟨rfl, by rw [hscored]; rfl⟩

/-- The sweep of a decision. -/
def PerAction.swept (p : PerAction L γ) : PerAction.Sweep L γ :=
  sweep p.stale p.cap (stateRow p.oneHot state previous) Protocol.pool p.buckets p.rng

theorem PerAction.work_decide (p : PerAction L γ) :
    (p.decide state previous measured).state.buckets = (p.swept state previous).buckets ∧
      (p.decide state previous measured).work.fits = (p.swept state previous).fits ∧
      (p.decide state previous measured).work.Shows (p.swept state previous).scored := by
  rw [decide, swept]
  dsimp only
  cases hscored : (sweep p.stale p.cap (stateRow p.oneHot state previous) Protocol.pool p.buckets
    p.rng).scored.outcome <;> exact ⟨rfl, rfl, .inr ⟨rfl, by rw [hscored]; rfl⟩⟩

/-- With records, the strategy with one model scores by the bucket that its refit leaves. -/
theorem Single.work_decide (s : Single L γ) :
    (s.bucket.count = 0 ∧ (s.decide state measured).work = Work.none) ∨
      (s.bucket.count ≠ 0 ∧ (s.decide state measured).state.buckets = s.trained.buckets ∧
        (s.decide state measured).work.Shows
          ((s.trained.buckets.get ()).scoreJointly (fillState state.toList s.matrix))) := by
  simp only [decide]
  split
  · next hcount => exact .inl ⟨hcount, rfl⟩
  · next hcount =>
    refine .inr ⟨hcount, ?_⟩
    split
    · exact ⟨rfl, .inl ⟨rfl, rfl⟩⟩
    · rw [trained, bucket]
      dsimp only [Bucket.scoreJointly]
      split <;> next hpredict => exact ⟨rfl, .inr ⟨rfl, by rw [hpredict]; rfl⟩⟩

/-- So does the reduced one. -/
theorem Reduced.work_decide (r : Reduced L γ) :
    (r.bucket.count = 0 ∧ (r.decide state measured).work = Work.none) ∨
      (r.bucket.count ≠ 0 ∧ (r.decide state measured).state.buckets = r.trained.buckets ∧
        (r.decide state measured).work.Shows
          ((r.trained.buckets.get ()).scoreJointly (fillState [state.requestSize] r.matrix))) := by
  simp only [decide]
  split
  · next hcount => exact .inl ⟨hcount, rfl⟩
  · next hcount =>
    refine .inr ⟨hcount, ?_⟩
    split
    · exact ⟨rfl, .inl ⟨rfl, rfl⟩⟩
    · rw [trained, bucket]
      dsimp only [Bucket.scoreJointly]
      split <;> next hpredict => exact ⟨rfl, .inr ⟨rfl, by rw [hpredict]; rfl⟩⟩

end

/-! ## What models are asked about -/

namespace StrategyKind

/-- The matrix handed to a model to score a candidate: the candidate's row, or the rows of all. -/
def asked (settings : StrategySettings) (kind : StrategyKind) (state : StateVector)
    (previous c : Protocol) : List Features :=
  match kind with
  | single | reduced => Protocol.pool.map (kind.encode settings state previous)
  | _ => [kind.encode settings state previous c]

/-- Where the candidate's own row stands in it. -/
def position (kind : StrategyKind) (c : Protocol) : Nat :=
  match kind with
  | single | reduced => c.index.val
  | _ => 0

theorem asked_getElem? (settings : StrategySettings) (kind : StrategyKind) (state : StateVector)
    (previous c : Protocol) : (kind.asked settings state previous c)[kind.position c]? =
      some (kind.encode settings state previous c) := by
  cases kind <;> cases c <;> rfl

end StrategyKind

/-- A candidate is asked about by the one row, whether or not its model answers. -/
theorem Scored.queries_ofCandidates {bucket : Protocol → Bucket L} {row : Features}
    {unknown : Protocol → Float} {candidates : List Protocol} {matrix : List Features}
    (h : matrix ∈ (ofCandidates bucket row unknown candidates).queries) : matrix = [row] := by
  induction candidates with
  | nil => cases h
  | cons c rest ih =>
    rw [ofCandidates] at h
    split at h
    · exact ih h
    · split at h
      · exact List.mem_singleton.mp h
      · exact (List.mem_cons.mp h).elim id ih

theorem PerAction.queries_sweep [Dice γ] {stale : Option Protocol} {cap : ReplayCap} {row : Features}
    {candidates : List Protocol} {b : Buckets Protocol L} {rng : γ} {matrix : List Features}
    (h : matrix ∈ (sweep stale cap row candidates b rng).scored.queries) : matrix = [row] := by
  induction candidates generalizing b rng with
  | nil => cases h
  | cons c rest ih =>
    rw [sweep] at h
    split at h
    · exact ih h
    · dsimp only at h
      split at h
      · cases h
      · split at h
        · exact List.mem_singleton.mp h
        · exact (List.mem_cons.mp h).elim id ih

namespace Strategy

variable [Dice γ] {settings : StrategySettings} {s : Strategy L γ}

/-- Models are asked about candidates' rows and nothing else, whether or not they answer. -/
theorem asked_decide (h : s.Keeps settings) {state : StateVector} {previous : Protocol}
    {measured : Cost} {matrix : List Features}
    (hmatrix : matrix ∈ (s.decide state previous measured).work.queries) (c : Protocol) :
    matrix = s.kind.asked settings state previous c := by
  cases s with
  | quadratic q =>
    exact Scored.queries_ofCandidates ((q.work_decide state previous measured).2.mem_queries hmatrix)
  | staticOffline s =>
    exact Scored.queries_ofCandidates ((s.work_decide state previous measured).mem_queries hmatrix)
  | perAction p =>
    rw [PerAction.queries_sweep ((p.work_decide state previous measured).2.2.mem_queries hmatrix), h.2]
    rfl
  | single s =>
    obtain ⟨-, columns, hcolumns, hkept⟩ := h
    change matrix ∈ (s.decide state measured).work.queries at hmatrix
    rcases s.work_decide state measured with ⟨-, hnone⟩ | ⟨-, -, hshows⟩
    · rw [hnone] at hmatrix
      cases hmatrix
    · rw [hkept, fillState_candidateRows hcolumns] at hshows
      exact List.mem_singleton.mp (hshows.mem_queries hmatrix)
  | reduced r =>
    obtain ⟨columns, hcolumns, hkept⟩ := h
    change matrix ∈ (r.decide state measured).work.queries at hmatrix
    rcases r.work_decide state measured with ⟨-, hnone⟩ | ⟨-, -, hshows⟩
    · rw [hnone] at hmatrix
      cases hmatrix
    · rw [hkept, fillState_candidateRows hcolumns] at hshows
      exact List.mem_singleton.mp (hshows.mem_queries hmatrix)
  | ruleBased => cases hmatrix

end Strategy

/-! ## What a score says -/

/-- A bucket answers for a matrix, and `x` is its estimate for the row at a position. -/
def Bucket.Estimates (b : Bucket L) (matrix : List Features) (position : Nat) (x : Float) : Prop :=
  ∃ estimates, b.predictAll matrix = .ok estimates ∧ estimates[position]? = some x

theorem Bucket.estimates_of_predict {b : Bucket L} {row : Features} {x : Float}
    (h : b.predict row = .ok x) : b.Estimates [row] 0 x := by
  rw [predict] at h
  split at h
  · next estimate rest hall =>
    refine ⟨estimate :: rest, hall, ?_⟩
    rw [Except.ok.inj h]
    rfl
  · cases h
  · cases h

namespace PerAction

variable [Dice γ] {stale : Option Protocol} {cap : ReplayCap} {row : Features}
  {candidates : List Protocol} {b : Buckets Protocol L} {rng : γ} {scores : List Float}

theorem get_trainStale_filter {c c' : Protocol} (h : c' ≠ c) :
    (b.trainStale (stale.filter (· = c)) cap rng).buckets.get c' = b.get c' := by
  refine Grid.get_refit_of_ne (g := ⟨b, stale.filter (· = c), cap, rng⟩) fun hstale => h ?_
  simpa using (Option.filter_eq_some_iff.mp hstale).2

/-- A sweep leaves the buckets of other protocols alone. -/
theorem get_sweep {c' : Protocol} (h : c' ∉ candidates) :
    (sweep stale cap row candidates b rng).buckets.get c' = b.get c' := by
  induction candidates generalizing b rng with
  | nil => rfl
  | cons c rest ih =>
    obtain ⟨hne, hrest⟩ := List.ne_and_not_mem_of_not_mem_cons h
    have hpass : (b.trainStale (stale.filter (· = c)) cap rng).buckets.get c' = b.get c' :=
      get_trainStale_filter hne
    rw [sweep]
    split
    · exact ih hrest
    · dsimp only
      split
      · exact hpass
      · split
        · exact hpass
        · exact (ih hrest).trans hpass

/-- If a sweep scores all its candidates, a score tells of its candidate by the bucket that the sweep
leaves, and the row was put to every bucket with records. -/
theorem tells_sweep (hnodup : candidates.Nodup)
    (h : (sweep stale cap row candidates b rng).scored.outcome = .ok scores) {k : Nat} {c : Protocol}
    (hc : candidates[k]? = some c) {x : Float} (hx : scores[k]? = some x) :
    Scored.Tells (sweep stale cap row candidates b rng).buckets.get row (fun _ => highest) c x ∧
      (((sweep stale cap row candidates b rng).buckets.get c).count ≠ 0 →
        [row] ∈ (sweep stale cap row candidates b rng).scored.queries) := by
  induction candidates generalizing b rng scores k with
  | nil =>
    rw [List.getElem?_nil] at hc
    cases hc
  | cons c₀ rest ih =>
    obtain ⟨hnot, hnodup'⟩ := List.nodup_cons.mp hnodup
    rw [sweep] at h ⊢
    by_cases hcount : (b.get c₀).count = 0
    · rw [if_pos hcount] at h ⊢
      obtain ⟨others, hrest, rfl⟩ := Scored.map_cons_eq_ok h
      cases k with
      | zero =>
        obtain rfl : c₀ = c := Option.some.inj hc
        have hcount' : ((sweep stale cap row rest b rng).buckets.get c₀).count = 0 := by
          rwa [get_sweep hnot]
        refine ⟨⟨fun _ => (Option.some.inj hx).symm, fun hne => (hne hcount').elim⟩, ?_⟩
        exact fun hne => (hne hcount').elim
      | succ k => exact ih hnodup' hrest hc hx
    · rw [if_neg hcount] at h ⊢
      dsimp only at h ⊢
      have hkeeps := Buckets.sameStores_trainStale b (stale.filter (· = c₀)) cap rng
      cases hpass : (b.trainStale (stale.filter (· = c₀)) cap rng).outcome with
      | error e =>
        rw [hpass] at h
        cases h
      | ok _ =>
        cases hpredict : ((b.trainStale (stale.filter (· = c₀)) cap rng).buckets.get c₀).predict
            row with
        | error e =>
          rw [hpass, hpredict] at h
          cases h
        | ok score =>
          rw [hpass, hpredict] at h
          obtain ⟨others, hrest, rfl⟩ := Scored.map_cons_eq_ok h
          dsimp only
          cases k with
          | zero =>
            obtain rfl : c₀ = c := Option.some.inj hc
            obtain rfl : score = x := Option.some.inj hx
            -- the buckets behind the candidate leave it as its own refit did
            refine ⟨⟨fun hzero => ?_, fun _ => ?_⟩, fun _ => List.mem_cons_self ..⟩
            · change ((sweep _ _ _ _ _ _).buckets.get c₀).count = 0 at hzero
              rw [get_sweep hnot, hkeeps.count] at hzero
              exact (hcount hzero).elim
            · show ((sweep _ _ _ _ _ _).buckets.get c₀).predict row = _
              rw [get_sweep hnot, hpredict]
          | succ k =>
            obtain ⟨htells, hasked⟩ := ih hnodup' hrest hc hx
            exact ⟨htells, fun hne => List.mem_cons_of_mem _ (hasked hne)⟩

end PerAction

/-- If all candidates are scored, one with records was asked about, and its score is the estimate of its
bucket. -/
theorem Scored.estimates_of_ok {bucket : Protocol → Bucket L} {row : Features}
    {unknown : Protocol → Float} {scores : List Float}
    (h : (ofCandidates bucket row unknown Protocol.pool).outcome = .ok scores) {c : Protocol}
    (hcount : (bucket c).count ≠ 0) {x : Float} (hx : scores[c.index.val]? = some x) :
    [row] ∈ (ofCandidates bucket row unknown Protocol.pool).queries ∧
      (bucket c).Estimates [row] 0 x := by
  constructor
  · rw [queries_of_ok h]
    exact List.mem_map.mpr ⟨c, List.mem_filter.mpr ⟨c.mem_pool, by simpa using hcount⟩, rfl⟩
  · obtain ⟨score, hscore, -, hmodel⟩ := tells_index h c
    rw [hx] at hscore
    rw [Option.some.inj hscore]
    exact Bucket.estimates_of_predict (hmodel hcount)

namespace Strategy

variable [Dice γ] {settings : StrategySettings} {s : Strategy L γ}

/-- The score of a candidate whose bucket has records is what the model of that bucket estimates for the
candidate's row, in a matrix that was handed to it. -/
theorem scored_decide (h : s.Keeps settings) {state : StateVector} {previous : Protocol}
    {measured : Cost} {scores : List Float}
    (hscores : (s.decide state previous measured).work.scores = some scores) {c : Protocol} {x : Float}
    (hx : scores[c.index.val]? = some x)
    (hcount : ((s.decide state previous measured).state.bucketAt previous c).count ≠ 0) :
    s.kind.asked settings state previous c ∈ (s.decide state previous measured).work.queries ∧
      ((s.decide state previous measured).state.bucketAt previous c).Estimates
        (s.kind.asked settings state previous c) (s.kind.position c) x := by
  cases s with
  | quadratic q =>
    simp only [decide, Decided.map, bucketAt] at hscores hcount ⊢
    obtain ⟨hbuckets, hshows⟩ := q.work_decide state previous measured
    obtain ⟨hqueries, hok⟩ := hshows.of_scores hscores
    rw [hbuckets] at hcount ⊢
    rw [hqueries]
    exact Scored.estimates_of_ok hok hcount hx
  | staticOffline s =>
    simp only [decide, Decided.map, bucketAt] at hscores hcount ⊢
    obtain ⟨hqueries, hok⟩ := (s.work_decide state previous measured).of_scores hscores
    rw [s.decide_buckets] at hcount ⊢
    rw [hqueries]
    exact Scored.estimates_of_ok hok hcount hx
  | perAction p =>
    simp only [decide, Decided.map, bucketAt] at hscores hcount ⊢
    obtain ⟨hbuckets, -, hshows⟩ := p.work_decide state previous measured
    obtain ⟨hqueries, hok⟩ := hshows.of_scores hscores
    rw [hbuckets] at hcount ⊢
    obtain ⟨⟨-, hmodel⟩, hasked⟩ := PerAction.tells_sweep (by decide) hok c.pool_getElem?_index hx
    have hrow : (perAction p).kind.asked settings state previous c =
        [stateRow p.oneHot state previous] := by
      rw [h.2]
      rfl
    rw [hqueries, hrow]
    exact ⟨hasked hcount, Bucket.estimates_of_predict (hmodel hcount)⟩
  | single s =>
    obtain ⟨-, columns, hcolumns, hkept⟩ := h
    simp only [decide, Decided.map, bucketAt] at hscores ⊢
    rcases s.work_decide state measured with ⟨-, hnone⟩ | ⟨-, hbuckets, hshows⟩
    · rw [hnone] at hscores
      cases hscores
    · rw [hkept, fillState_candidateRows hcolumns] at hshows
      obtain ⟨hqueries, hok⟩ := hshows.of_scores hscores
      rw [hqueries, hbuckets]
      exact ⟨List.mem_singleton_self _, scores, hok, hx⟩
  | reduced r =>
    obtain ⟨columns, hcolumns, hkept⟩ := h
    simp only [decide, Decided.map, bucketAt] at hscores ⊢
    rcases r.work_decide state measured with ⟨-, hnone⟩ | ⟨-, hbuckets, hshows⟩
    · rw [hnone] at hscores
      cases hscores
    · rw [hkept, fillState_candidateRows hcolumns] at hshows
      obtain ⟨hqueries, hok⟩ := hshows.of_scores hscores
      rw [hqueries, hbuckets]
      exact ⟨List.mem_singleton_self _, scores, hok, hx⟩
  | ruleBased => cases hscores

end Strategy

end AdaptiveConsensus
