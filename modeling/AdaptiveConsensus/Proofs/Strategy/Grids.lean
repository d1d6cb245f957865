import AdaptiveConsensus.Proofs.Experience.Strategies
import AdaptiveConsensus.Proofs.Experience.Training
import AdaptiveConsensus.Proofs.Strategy.Scoring

/-!
# Grids of buckets that are refitted late

Two strategies keep a grid of buckets, one bucket for each key, and remember the key rewarded last:
its bucket is refitted only when the next decision is asked for. The pairwise strategy refits before it
scores, the one with a model per protocol when the bucket's turn comes among the candidates. If the
models that are asked answer, this makes no difference, and `GridView` is what both have in common.

- `PerAction.sweep_eq`: a sweep that refits on its way refits, then scores.
- `GridView`: the calls of such a strategy as changes of its grid.
- `pairView`, `actionView`: the two strategies.
-/

namespace AdaptiveConsensus

open AdaptiveConsensus.Random

variable {κ : Type} [Indexed κ] {L : Learner} {γ : Type}

/-- Buckets, the key of the one that is to be refitted, and what refitting needs. -/
structure Grid (κ : Type) [Indexed κ] (L : Learner) (γ : Type) where
  buckets : Buckets κ L
  stale : Option κ
  cap : ReplayCap
  rng : γ

/-- What refitting the stale bucket leaves. -/
def Grid.refit [Dice γ] (g : Grid κ L γ) : Buckets.Pass κ L γ :=
  g.buckets.trainStale g.stale g.cap g.rng

/-- The bucket of a candidate gives an estimate if it has records. -/
def Filing.Answered (f : Filing κ) (b : Buckets κ L) (state : StateVector)
    (previous chosen : Protocol) : Prop :=
  (b.get (f.key previous chosen)).count ≠ 0 →
    ∃ x, (b.get (f.key previous chosen)).predict (f.encode state previous chosen) = .ok x

/-- What a decision leaves of a grid: the stale bucket refitted, nothing else changed. The scores are
those of the buckets it leaves. -/
structure Grid.Decided [Dice γ] (f : Filing κ) (g g' : Grid κ L γ) (state : StateVector)
    (previous : Protocol) (work : Work) : Prop where
  buckets : g'.buckets = g.refit.buckets
  stale : g'.stale = none
  cap : g'.cap = g.cap
  fits : work.fits = g.refit.fits
  /-- Each candidate with records is asked about, and no other. -/
  queries : work.queries =
    (Protocol.pool.filter fun c => (g'.buckets.get (f.key previous c)).count ≠ 0).map fun c =>
      [f.encode state previous c]
  /-- Its score is the estimate of its bucket's model. -/
  scored : ∃ scores, work.scores = some scores ∧
    ∀ c, (g'.buckets.get (f.key previous c)).count ≠ 0 → ∃ x, scores[c.index.val]? = some x ∧
      (g'.buckets.get (f.key previous c)).predict (f.encode state previous c) = .ok x

/-- A kind of strategy that refits a grid late: what it is built as, and how a throughput, a decision
to be filed, and a decision to be made change the grid. -/
structure GridView (kind : StrategyKind) (settings : StrategySettings) [DecidableEq κ]
    (f : Filing κ) (L : Learner) (γ : Type) [Dice γ] where
  grid? : Strategy L γ → Option (Grid κ L γ)
  build : ∀ (history : List HistoryRow) (rng : γ),
    let pass := (f.seed Buckets.empty history).trainAll (fun b rng => b.train settings.cap rng) rng
    (Strategy.build (L := L) kind settings history rng).fits = pass.fits ∧
      (Strategy.build (L := L) kind settings history rng).outcome = pass.outcome ∧
      grid? (Strategy.build kind settings history rng).strategy =
        some ⟨pass.buckets, none, settings.cap, pass.rng⟩
  accounts : ∀ {s : Strategy L γ} {g : Grid κ L γ} {history rows : List HistoryRow}
    {waiting : List FiledDecision}, grid? s = some g → s.Accounts settings history rows waiting →
    f.Accounts g.buckets (history ++ rows) waiting
  reward : ∀ {s : Strategy L γ} {g : Grid κ L γ} {previous chosen : Protocol} {raw : Float},
    grid? s = some g → (s.recordReward previous chosen raw).2 = .ok () →
    ∃ b, f.recordReward? g.buckets previous chosen raw = some b ∧
      grid? (s.recordReward previous chosen raw).1 =
        some { g with buckets := b, stale := some (f.key previous chosen) }
  file : ∀ {s : Strategy L γ} {g : Grid κ L γ} (previous chosen : Protocol) (state : StateVector),
    grid? s = some g → grid? (s.recordDecision previous chosen state) =
      some { g with buckets := f.recordDecision g.buckets previous chosen state }
  /-- The stale bucket is refitted unless an up-to-date one fails before. -/
  fits : ∀ {s : Strategy L γ} {g : Grid κ L γ} (state : StateVector) (previous : Protocol)
    (measured : Cost), grid? s = some g →
    (∀ c, g.stale ≠ some (f.key previous c) → f.Answered g.buckets state previous c) →
    (s.decide state previous measured).work.fits = g.refit.fits
  decide : ∀ {s : Strategy L γ} {g : Grid κ L γ} (state : StateVector) (previous : Protocol)
    (measured : Cost), grid? s = some g →
    (∀ c, g.stale ≠ some (f.key previous c) → f.Answered g.buckets state previous c) →
    g.refit.outcome = .ok () → (∀ c, f.Answered g.refit.buckets state previous c) →
    ∃ choice g', (s.decide state previous measured).outcome = .ok choice ∧
      grid? (s.decide state previous measured).state = some g' ∧
      g.Decided f g' state previous (s.decide state previous measured).work

section

variable [Dice γ] {f : Filing κ} {state : StateVector} {previous : Protocol}

/-- Scoring the candidates by the refitted buckets, each asked about the row of the state. -/
theorem Grid.decided_of_scores {g g' : Grid κ L γ} {row : Features} {unknown : Protocol → Float}
    {scores : List Float} (hbuckets : g'.buckets = g.refit.buckets) (hstale : g'.stale = none)
    (hcap : g'.cap = g.cap) (hrow : ∀ c, f.encode state previous c = row)
    (hscores : (Scored.ofCandidates (fun c => g'.buckets.get (f.key previous c)) row unknown
      Protocol.pool).outcome = .ok scores) :
    g.Decided f g' state previous ⟨g.refit.fits,
      (Scored.ofCandidates (fun c => g'.buckets.get (f.key previous c)) row unknown
        Protocol.pool).queries, some scores⟩ where
  buckets := hbuckets
  stale := hstale
  cap := hcap
  fits := rfl
  queries := by
    rw [Scored.queries_of_ok hscores]
    simp only [hrow]
  scored := by
    refine ⟨scores, rfl, fun c hcount => ?_⟩
    obtain ⟨x, hx, -, hmodel⟩ := Scored.tells_index hscores c
    rw [hrow]
    exact ⟨x, hx, hmodel hcount⟩

/-- If the models of the candidates answer, scoring succeeds. -/
theorem Filing.scores_ok {b : Buckets κ L} {row : Features} (unknown : Protocol → Float)
    (hrow : ∀ c, f.encode state previous c = row)
    (hanswered : ∀ c, f.Answered b state previous c) :
    ∃ scores, (Scored.ofCandidates (fun c => b.get (f.key previous c)) row unknown
      Protocol.pool).outcome = .ok scores := by
  refine Scored.ok_of_predicts fun c _ hcount => ?_
  rw [← hrow c]
  exact hanswered c hcount

end

/-- Refitting a bucket without records does nothing. -/
theorem Buckets.trainStale_of_count_eq_zero [Dice γ] {b : Buckets κ L} {k : κ} {cap : ReplayCap}
    {rng : γ} (hcount : (b.get k).count = 0) :
    b.trainStale (some k) cap rng = ⟨b, rng, [], .ok ()⟩ := by
  rw [trainStale, trainOne, Bucket.train_of_count_eq_zero hcount]
  dsimp only
  rw [Table.set_get]

/-! ## The pairwise strategy -/

namespace Quadratic

variable [Dice γ] (q : Quadratic L γ)

/-- The grid of the pairwise strategy. -/
def grid : Grid (Protocol × Protocol) L γ :=
  ⟨q.buckets, q.stale, q.cap, q.rng⟩

theorem refresh_eq :
    q.refresh = ({ q with buckets := q.grid.refit.buckets, stale := none, rng := q.grid.refit.rng },
      q.grid.refit.fits, q.grid.refit.outcome) :=
  rfl

omit [Dice γ] in
theorem grid_hold (previous chosen : Protocol) : (q.hold previous chosen).grid = q.grid := by
  rw [hold]
  split <;> rfl

theorem fits_decide (state : StateVector) (previous : Protocol) (measured : Cost) :
    (q.decide state previous measured).work.fits = q.grid.refit.fits := by
  rw [decide, refresh_eq]
  dsimp only
  split
  · rfl
  · split <;> rfl

/-- The pairwise strategy refits, then scores. -/
theorem decided (state : StateVector) (previous : Protocol) (measured : Cost)
    (hrefit : q.grid.refit.outcome = .ok ())
    (hanswered : ∀ c, pairFiling.Answered q.grid.refit.buckets state previous c) :
    ∃ choice, (q.decide state previous measured).outcome = .ok choice ∧
      q.grid.Decided pairFiling (q.decide state previous measured).state.grid state previous
        (q.decide state previous measured).work := by
  obtain ⟨scores, hscores⟩ : ∃ scores, (q.refresh.1.scoreAll state previous).outcome = .ok scores :=
    Filing.scores_ok (f := pairFiling) (b := q.grid.refit.buckets)
      (q.refresh.1.unknownScore previous) (fun _ => rfl) hanswered
  rw [decide]
  rw [refresh_eq] at hscores ⊢
  rw [hrefit]
  dsimp only
  rw [hscores]
  dsimp only
  refine ⟨_, rfl, ?_⟩
  rw [grid_hold]
  exact Grid.decided_of_scores rfl rfl rfl (fun _ => rfl) hscores

end Quadratic

/-- The pairwise strategy refits late. -/
def pairView (settings : StrategySettings) (L : Learner) (γ : Type) [Dice γ] :
    GridView .quadratic settings pairFiling L γ where
  grid?
    | .quadratic q => some q.grid
    | _ => none
  build := fun _ _ => ⟨rfl, rfl, rfl⟩
  accounts := by
    intro s g history rows waiting hs haccount
    cases s with
    | quadratic q =>
      obtain rfl := Option.some.inj hs
      exact haccount
    | _ => cases hs
  reward := by
    intro s g previous chosen raw hs hok
    cases s with
    | quadratic q =>
      obtain rfl := Option.some.inj hs
      simp only [Strategy.recordReward, Quadratic.recordReward, Quadratic.filing] at hok ⊢
      cases hrec : pairFiling.recordReward? q.buckets previous chosen raw with
      | none =>
        rw [hrec] at hok
        cases hok
      | some b => exact ⟨b, hrec, rfl⟩
    | _ => cases hs
  file := by
    intro s g previous chosen state hs
    cases s with
    | quadratic q =>
      obtain rfl := Option.some.inj hs
      rfl
    | _ => cases hs
  fits := by
    intro s g state previous measured hs _
    cases s with
    | quadratic q =>
      obtain rfl := Option.some.inj hs
      exact q.fits_decide state previous measured
    | _ => cases hs
  decide := by
    intro s g state previous measured hs _ hrefit hanswered
    cases s with
    | quadratic q =>
      obtain rfl := Option.some.inj hs
      obtain ⟨choice, hchoice, hdecided⟩ := q.decided state previous measured hrefit hanswered
      exact ⟨choice, _, hchoice, rfl, hdecided⟩
    | _ => cases hs

/-! ## The strategy with one model per protocol -/

namespace PerAction

variable [Dice γ]

/-- The grid of the strategy with one model per protocol. -/
def grid (p : PerAction L γ) : Grid Protocol L γ :=
  ⟨p.buckets, p.stale, p.cap, p.rng⟩

variable {stale : Option Protocol} {cap : ReplayCap} {row : Features} {candidates : List Protocol}
  {b : Buckets Protocol L} {rng : γ}

/-- A sweep that refits first and scores afterwards. -/
def refitFirst (stale : Option Protocol) (cap : ReplayCap) (row : Features)
    (candidates : List Protocol) (b : Buckets Protocol L) (rng : γ) : Sweep L γ :=
  let pass := b.trainStale stale cap rng
  ⟨pass.buckets, pass.rng, pass.fits,
    Scored.ofCandidates pass.buckets.get row (fun _ => highest) candidates⟩

theorem filter_eq_none {k c : Protocol} (h : k ≠ c) : (some k).filter (· = c) = none := by
  rw [Option.filter_some, if_neg (by simpa using h)]

theorem filter_eq_self (k : Protocol) : (some k).filter (· = k) = some k := by
  rw [Option.filter_some, if_pos (by simp)]

theorem refitFirst_none : refitFirst none cap row candidates b rng =
    ⟨b, rng, [], Scored.ofCandidates b.get row (fun _ => highest) candidates⟩ :=
  rfl

/-- A candidate without records is passed over. -/
theorem sweep_cons_unasked {c : Protocol} {rest : List Protocol} (hcount : (b.get c).count = 0) :
    sweep stale cap row (c :: rest) b rng =
      { sweep stale cap row rest b rng with
        scored := (sweep stale cap row rest b rng).scored.consUnasked highest } := by
  rw [sweep, if_pos hcount]

/-- A candidate that is not stale is asked and left as it is. -/
theorem sweep_cons_fresh {c : Protocol} {rest : List Protocol} {x : Float} (hc : stale ≠ some c)
    (hcount : (b.get c).count ≠ 0) (hx : (b.get c).predict row = .ok x) :
    sweep stale cap row (c :: rest) b rng =
      { sweep stale cap row rest b rng with
        scored := (sweep stale cap row rest b rng).scored.consAsked row x } := by
  have hnone : stale.filter (· = c) = none := by
    cases stale with
    | none => rfl
    | some k => exact filter_eq_none fun h => hc (congrArg some h)
  rw [sweep, if_neg hcount, hnone]
  dsimp only [Buckets.trainStale]
  rw [hx]
  rfl

/-- Where no candidate is stale, a sweep only scores. -/
theorem sweep_of_fresh (hfresh : ∀ c ∈ candidates, stale ≠ some c)
    (hanswered : ∀ c ∈ candidates, (b.get c).count ≠ 0 → ∃ x, (b.get c).predict row = .ok x) :
    sweep stale cap row candidates b rng = refitFirst none cap row candidates b rng := by
  induction candidates with
  | nil => rfl
  | cons c rest ih =>
    have hrest := ih (fun c' hc' => hfresh c' (List.mem_cons_of_mem _ hc'))
      fun c' hc' => hanswered c' (List.mem_cons_of_mem _ hc')
    rw [refitFirst_none] at hrest ⊢
    by_cases hcount : (b.get c).count = 0
    · rw [sweep_cons_unasked hcount, hrest, Scored.ofCandidates_unasked hcount]
    · obtain ⟨x, hx⟩ := hanswered c (List.mem_cons_self ..) hcount
      rw [sweep_cons_fresh (hfresh c (List.mem_cons_self ..)) hcount hx, hrest,
        Scored.ofCandidates_asked hcount hx]

/-- A sweep that refits on its way hands over what refitting the stale bucket does; if that succeeds and
the new model answers, it might as well refit first. -/
structure SweepsAlike (k : Protocol) (cap : ReplayCap) (row : Features) (candidates : List Protocol)
    (b : Buckets Protocol L) (rng : γ) : Prop where
  fits : (sweep (some k) cap row candidates b rng).fits = (b.trainStale (some k) cap rng).fits
  eq : (b.trainStale (some k) cap rng).outcome = .ok () →
    (((b.trainStale (some k) cap rng).buckets.get k).count ≠ 0 →
      ∃ x, ((b.trainStale (some k) cap rng).buckets.get k).predict row = .ok x) →
    sweep (some k) cap row candidates b rng = refitFirst (some k) cap row candidates b rng

/-- The stale candidate is refitted when its turn comes, and behind it nothing is. -/
theorem sweepsAlike_self {c : Protocol} {rest : List Protocol} (hnot : c ∉ rest)
    (hanswered : ∀ c' ∈ rest, (b.get c').count ≠ 0 → ∃ x, (b.get c').predict row = .ok x) :
    SweepsAlike c cap row (c :: rest) b rng := by
  have hafter : ∀ (b' : Buckets Protocol L) (rng' : γ), (∀ c' ≠ c, b'.get c' = b.get c') →
      sweep (some c) cap row rest b' rng' =
        ⟨b', rng', [], Scored.ofCandidates b'.get row (fun _ => highest) rest⟩ := by
    intro b' rng' hb'
    have hne : ∀ c' ∈ rest, c' ≠ c := fun c' hc' heq => hnot (heq ▸ hc')
    refine sweep_of_fresh (fun c' hc' h => hne c' hc' (Option.some.inj h).symm) fun c' hc' => ?_
    rw [hb' c' (hne c' hc')]
    exact hanswered c' hc'
  by_cases hcount : (b.get c).count = 0
  · have hsweep : sweep (some c) cap row (c :: rest) b rng =
        refitFirst (some c) cap row (c :: rest) b rng := by
      rw [sweep_cons_unasked hcount, refitFirst, Buckets.trainStale_of_count_eq_zero hcount,
        hafter b rng fun _ _ => rfl, Scored.ofCandidates_unasked hcount]
    exact ⟨by rw [hsweep, refitFirst], fun _ _ => hsweep⟩
  · have hcount' : ((b.trainStale (some c) cap rng).buckets.get c).count ≠ 0 := by
      rwa [(Buckets.sameStores_trainStale b (some c) cap rng).count]
    have hrest := hafter (b.trainStale (some c) cap rng).buckets (b.trainStale (some c) cap rng).rng
      fun c' hc' => Table.get_set_ne _ _ hc'
    constructor
    · rw [sweep, if_neg hcount, filter_eq_self]
      dsimp only
      cases (b.trainStale (some c) cap rng).outcome with
      | error e => rfl
      | ok _ =>
        dsimp only
        cases ((b.trainStale (some c) cap rng).buckets.get c).predict row with
        | error e => rfl
        | ok x =>
          dsimp only
          rw [hrest, List.append_nil]
    · intro hok hmodel
      obtain ⟨x, hx⟩ := hmodel hcount'
      rw [sweep, if_neg hcount, filter_eq_self, refitFirst]
      dsimp only
      rw [hok]
      dsimp only
      rw [hx]
      dsimp only
      rw [hrest, List.append_nil, Scored.ofCandidates_asked hcount' hx]

/-- The candidates before the stale one are asked as they are. -/
theorem SweepsAlike.cons {k c : Protocol} {rest : List Protocol} (hck : c ≠ k)
    (hanswered : (b.get c).count ≠ 0 → ∃ x, (b.get c).predict row = .ok x)
    (h : SweepsAlike k cap row rest b rng) : SweepsAlike k cap row (c :: rest) b rng := by
  have hsame : (b.trainStale (some k) cap rng).buckets.get c = b.get c := Table.get_set_ne _ _ hck
  by_cases hcount : (b.get c).count = 0
  · constructor <;> rw [sweep_cons_unasked hcount]
    · exact h.fits
    · intro hok hmodel
      rw [h.eq hok hmodel, refitFirst, refitFirst, Scored.ofCandidates_unasked (by rwa [hsame])]
  · obtain ⟨x, hx⟩ := hanswered hcount
    have hstale : some k ≠ some c := fun heq => hck (Option.some.inj heq).symm
    constructor <;> rw [sweep_cons_fresh hstale hcount hx]
    · exact h.fits
    · intro hok hmodel
      rw [h.eq hok hmodel, refitFirst, refitFirst,
        Scored.ofCandidates_asked (by rwa [hsame]) (by rwa [hsame])]

/-- A sweep over candidates with a stale one among them might as well refit first. -/
theorem sweepsAlike {k : Protocol} (hk : k ∈ candidates) (hnodup : candidates.Nodup)
    (hanswered : ∀ c ∈ candidates, c ≠ k → (b.get c).count ≠ 0 →
      ∃ x, (b.get c).predict row = .ok x) : SweepsAlike k cap row candidates b rng := by
  induction candidates with
  | nil => cases hk
  | cons c rest ih =>
    obtain ⟨hnot, hnodup'⟩ := List.nodup_cons.mp hnodup
    by_cases hck : c = k
    · subst hck
      refine sweepsAlike_self hnot fun c' hc' => ?_
      exact hanswered c' (List.mem_cons_of_mem _ hc') fun heq => hnot (heq ▸ hc')
    · refine (ih ((List.mem_cons.mp hk).resolve_left (Ne.symm hck)) hnodup' fun c' hc' => ?_).cons hck
        (hanswered c (List.mem_cons_self ..) hck)
      exact hanswered c' (List.mem_cons_of_mem _ hc')

/-- The sweep over the pool might as well refit first, if the models that are asked answer. -/
theorem sweep_eq {f : Filing Protocol} {state : StateVector} {previous : Protocol}
    (hkey : ∀ c, f.key previous c = c) (hrow : ∀ c, f.encode state previous c = row)
    (hanswered : ∀ c, stale ≠ some (f.key previous c) → f.Answered b state previous c) :
    (sweep stale cap row Protocol.pool b rng).fits = (b.trainStale stale cap rng).fits ∧
      ((b.trainStale stale cap rng).outcome = .ok () →
        (∀ c, f.Answered (b.trainStale stale cap rng).buckets state previous c) →
        sweep stale cap row Protocol.pool b rng =
          refitFirst stale cap row Protocol.pool b rng) := by
  simp only [Filing.Answered, hkey, hrow] at hanswered ⊢
  cases stale with
  | none =>
    have heq : sweep none cap row Protocol.pool b rng =
        refitFirst none cap row Protocol.pool b rng :=
      sweep_of_fresh (fun _ _ hk => by cases hk) fun c _ => hanswered c (by simp)
    exact ⟨by rw [heq]; rfl, fun _ _ => heq⟩
  | some k =>
    have hothers : ∀ c ∈ Protocol.pool, c ≠ k → (b.get c).count ≠ 0 →
        ∃ x, (b.get c).predict row = .ok x :=
      fun c _ hck => hanswered c fun h => hck (Option.some.inj h).symm
    have halike : SweepsAlike k cap row Protocol.pool b rng :=
      sweepsAlike k.mem_pool (by decide) hothers
    exact ⟨halike.fits, fun hok hanswered' => halike.eq hok (hanswered' k)⟩

variable (p : PerAction L γ)

theorem fits_decide (state : StateVector) (previous : Protocol) (measured : Cost)
    (hanswered : ∀ c, p.stale ≠ some c → p.filing.Answered p.buckets state previous c) :
    (p.decide state previous measured).work.fits = p.grid.refit.fits := by
  have hsweep : (sweep p.stale p.cap (stateRow p.oneHot state previous) Protocol.pool p.buckets
      p.rng).fits = p.grid.refit.fits :=
    (sweep_eq (f := p.filing) (fun _ => rfl) (fun _ => rfl) hanswered).1
  rw [decide]
  dsimp only
  split <;> exact hsweep

/-- The strategy with one model per protocol refits on its way, to the same effect. -/
theorem decided (state : StateVector) (previous : Protocol) (measured : Cost)
    (hanswered : ∀ c, p.stale ≠ some c → p.filing.Answered p.buckets state previous c)
    (hrefit : p.grid.refit.outcome = .ok ())
    (hanswered' : ∀ c, p.filing.Answered p.grid.refit.buckets state previous c) :
    ∃ choice, (p.decide state previous measured).outcome = .ok choice ∧
      p.grid.Decided p.filing (p.decide state previous measured).state.grid state previous
        (p.decide state previous measured).work := by
  have hsweep : sweep p.stale p.cap (stateRow p.oneHot state previous) Protocol.pool p.buckets p.rng =
      refitFirst p.stale p.cap (stateRow p.oneHot state previous) Protocol.pool p.buckets p.rng :=
    (sweep_eq (f := p.filing) (fun _ => rfl) (fun _ => rfl) hanswered).2 hrefit hanswered'
  obtain ⟨scores, hscores⟩ := Filing.scores_ok (f := p.filing) (fun _ => highest)
    (fun _ => rfl) hanswered'
  rw [decide, hsweep, refitFirst]
  dsimp only
  have hscores' : (Scored.ofCandidates (p.buckets.trainStale p.stale p.cap p.rng).buckets.get
      (stateRow p.oneHot state previous) (fun _ => highest) Protocol.pool).outcome = .ok scores :=
    hscores
  rw [hscores']
  exact ⟨_, rfl, Grid.decided_of_scores rfl rfl rfl (fun _ => rfl) hscores⟩

end PerAction

/-- The strategy with one model per protocol refits late. -/
def actionView (settings : StrategySettings) (L : Learner) (γ : Type) [Dice γ] :
    GridView .perAction settings (actionFiling settings.oneHot) L γ where
  grid?
    | .perAction p => if p.oneHot = settings.oneHot then some p.grid else none
    | _ => none
  build := fun _ _ => ⟨rfl, rfl, if_pos rfl⟩
  accounts := by
    intro s g history rows waiting hs haccount
    cases s with
    | perAction p =>
      obtain ⟨-, hg⟩ := Option.ite_none_right_eq_some.mp hs
      obtain rfl := Option.some.inj hg
      exact haccount.2
    | _ => cases hs
  reward := by
    intro s g previous chosen raw hs hok
    cases s with
    | perAction p =>
      obtain ⟨hone, hg⟩ := Option.ite_none_right_eq_some.mp hs
      obtain rfl := Option.some.inj hg
      simp only [Strategy.recordReward, PerAction.recordReward, PerAction.filing, hone] at hok ⊢
      cases hrec : (actionFiling settings.oneHot).recordReward? p.buckets previous chosen raw with
      | none =>
        rw [hrec] at hok
        cases hok
      | some b => exact ⟨b, hrec, if_pos rfl⟩
    | _ => cases hs
  file := by
    intro s g previous chosen state hs
    cases s with
    | perAction p =>
      obtain ⟨hone, hg⟩ := Option.ite_none_right_eq_some.mp hs
      obtain rfl := Option.some.inj hg
      refine (if_pos hone).trans ?_
      rw [PerAction.recordDecision, PerAction.filing, hone]
      rfl
    | _ => cases hs
  fits := by
    intro s g state previous measured hs hanswered
    cases s with
    | perAction p =>
      obtain ⟨hone, hg⟩ := Option.ite_none_right_eq_some.mp hs
      obtain rfl := Option.some.inj hg
      rw [← hone] at hanswered
      exact p.fits_decide state previous measured hanswered
    | _ => cases hs
  decide := by
    intro s g state previous measured hs hanswered hrefit hanswered'
    cases s with
    | perAction p =>
      obtain ⟨hone, hg⟩ := Option.ite_none_right_eq_some.mp hs
      obtain rfl := Option.some.inj hg
      rw [← hone] at hanswered hanswered' ⊢
      obtain ⟨choice, hchoice, hdecided⟩ :=
        p.decided state previous measured hanswered hrefit hanswered'
      exact ⟨choice, _, hchoice, if_pos (p.oneHot_decide state previous measured), hdecided⟩
    | _ => cases hs

end AdaptiveConsensus
