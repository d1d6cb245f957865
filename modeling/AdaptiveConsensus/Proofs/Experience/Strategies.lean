import AdaptiveConsensus.Proofs.Experience.Filing
import AdaptiveConsensus.Strategy.Basic

/-!
# What a strategy remembers

Three strategies learn online, each by its own filing rule: by pairs, by the protocol chosen, or in
one bucket. Two only ever know the history they were built on, and one knows nothing.
`Strategy.Accounts` puts the six side by side, and this file shows what each call of a strategy does
to its account, so that statements about runs need no case distinction over strategies.

- `Strategy.accounts_build`: a new strategy accounts for its history.
- `Strategy.Accounts.recordDecision`, `Strategy.Accounts.recordReward`: decisions and rewards are
  filed; the reward of the oldest waiting decision is never refused.
- `Strategy.Accounts.decide`: deciding keeps the account, whether it succeeds or not.
- `Strategy.Accounts.previousFeatures_eq`: what the log is shown after a reward. For the strategies
  that learn online it is the state of the decision just rewarded; the frozen pairwise strategy shows
  the last history row of the pair instead.
-/

namespace AdaptiveConsensus

open AdaptiveConsensus.Random

variable {L : Learner} {γ : Type}

/-! ## Deciding changes no store -/

theorem Quadratic.sameStores_decide [Dice γ] (q : Quadratic L γ) (state : StateVector)
    (previous : Protocol) (measured : Cost) :
    Buckets.SameStores q.buckets (q.decide state previous measured).state.buckets := by
  have hrefresh : Buckets.SameStores q.buckets q.refresh.1.buckets :=
    Buckets.sameStores_trainStale q.buckets q.stale q.cap q.rng
  simp only [Quadratic.decide]
  split
  · exact hrefresh
  · split
    · exact hrefresh
    · simp only [Quadratic.hold]
      split <;> exact hrefresh

theorem StaticOffline.sameStores_decide [Dice γ] (s : StaticOffline L γ) (state : StateVector)
    (previous : Protocol) (measured : Cost) :
    Buckets.SameStores s.buckets (s.decide state previous measured).state.buckets := by
  simp only [StaticOffline.decide]
  split <;> exact Buckets.SameStores.refl _

/-- A sweep refits on its way, and keeps every store. -/
theorem PerAction.sameStores_sweep [Dice γ] (stale : Option Protocol) (cap : ReplayCap)
    (row : Features) (candidates : List Protocol) (b : Buckets Protocol L) (rng : γ) :
    Buckets.SameStores b (PerAction.sweep stale cap row candidates b rng).buckets := by
  induction candidates generalizing b rng with
  | nil => exact Buckets.SameStores.refl b
  | cons c rest ih =>
    have hpass := Buckets.sameStores_trainStale b (stale.filter (· = c)) cap rng
    simp only [PerAction.sweep]
    split
    · exact ih b rng
    · split
      · exact hpass
      · split
        · exact hpass
        · exact hpass.trans (ih _ _)

theorem PerAction.sameStores_decide [Dice γ] (p : PerAction L γ) (state : StateVector)
    (previous : Protocol) (measured : Cost) :
    Buckets.SameStores p.buckets (p.decide state previous measured).state.buckets := by
  have hsweep := PerAction.sameStores_sweep p.stale p.cap (stateRow p.oneHot state previous)
    Protocol.pool p.buckets p.rng
  simp only [PerAction.decide]
  split <;> exact hsweep

theorem PerAction.oneHot_decide [Dice γ] (p : PerAction L γ) (state : StateVector)
    (previous : Protocol) (measured : Cost) :
    (p.decide state previous measured).state.oneHot = p.oneHot := by
  simp only [PerAction.decide]
  split <;> rfl

theorem Single.sameStores_decide [Dice γ] (s : Single L γ) (state : StateVector) (measured : Cost) :
    Buckets.SameStores s.buckets (s.decide state measured).state.buckets := by
  have htrain : Buckets.SameStores s.buckets
      (s.buckets.trainOne (fun b rng => b.train s.cap rng) () s.rng).buckets :=
    Buckets.sameStores_trainOne (fun b rng => b.store_train s.cap rng) s.buckets () s.rng
  simp only [Single.decide]
  split
  · exact Buckets.SameStores.refl _
  · split
    · exact htrain
    · split <;> exact htrain

theorem Reduced.sameStores_decide [Dice γ] (r : Reduced L γ) (state : StateVector)
    (measured : Cost) :
    Buckets.SameStores r.buckets (r.decide state measured).state.buckets := by
  have htrain : Buckets.SameStores r.buckets
      (r.buckets.trainOne (fun b rng => b.trainFull rng) () r.rng).buckets :=
    Buckets.sameStores_trainOne (fun b rng => b.store_trainFull rng) r.buckets () r.rng
  simp only [Reduced.decide]
  split
  · exact Buckets.SameStores.refl _
  · split
    · exact htrain
    · split <;> exact htrain

namespace Strategy

/-! ## The account of a strategy -/

/-- The strategy holds the records of its history and of the resolved decisions `rows`, and the
feature rows of the decisions that wait; a strategy that does not learn online holds its history
only. -/
def Accounts (settings : StrategySettings) (history rows : List HistoryRow)
    (waiting : List FiledDecision) : Strategy L γ → Prop
  | quadratic q => pairFiling.Accounts q.buckets (history ++ rows) waiting
  | perAction p => p.oneHot = settings.oneHot ∧
      (actionFiling settings.oneHot).Accounts p.buckets (history ++ rows) waiting
  | single s => jointFiling.Accounts s.buckets (history ++ rows) waiting
  | staticOffline s => pairFiling.Accounts s.buckets history []
  | reduced r => sizeFiling.Accounts r.buckets history []
  | ruleBased => True

variable {settings : StrategySettings} {history rows : List HistoryRow} {waiting : List FiledDecision}

@[simp] theorem kind_build [Dice γ] (kind : StrategyKind) (settings : StrategySettings)
    (history : List HistoryRow) (rng : γ) :
    (build (L := L) kind settings history rng).strategy.kind = kind := by
  cases kind <;> rfl

/-- A new strategy accounts for its history, whether or not all models could be fitted. -/
theorem accounts_build [Dice γ] (kind : StrategyKind) (settings : StrategySettings)
    (history : List HistoryRow) (rng : γ) :
    (build (L := L) kind settings history rng).strategy.Accounts settings history [] [] := by
  cases kind with
  | quadratic =>
    show pairFiling.Accounts _ (history ++ []) []
    rw [List.append_nil]
    exact (Filing.accounts_seed history).of_sameStores
      (Buckets.sameStores_trainAll (fun b rng => b.store_train _ rng) _ rng)
  | staticOffline =>
    exact (Filing.accounts_seed history).of_sameStores
      (Buckets.sameStores_trainAll (fun b rng => b.store_trainFull rng) _ rng)
  | perAction =>
    refine ⟨rfl, ?_⟩
    rw [List.append_nil]
    exact (Filing.accounts_seed history).of_sameStores
      (Buckets.sameStores_trainAll (fun b rng => b.store_train _ rng) _ rng)
  | single =>
    show jointFiling.Accounts _ (history ++ []) []
    rw [List.append_nil]
    exact (Filing.accounts_seed history).of_sameStores
      (Buckets.sameStores_trainAll (fun b rng => b.store_train _ rng) _ rng)
  | reduced =>
    exact (Filing.accounts_seed history).of_sameStores
      (Buckets.sameStores_trainAll (fun b rng => b.store_trainFull rng) _ rng)
  | ruleBased => trivial

theorem kind_recordDecision (s : Strategy L γ) (previous chosen : Protocol) (state : StateVector) :
    (s.recordDecision previous chosen state).kind = s.kind := by
  cases s <;> rfl

theorem kind_recordReward (s : Strategy L γ) (previous chosen : Protocol) (raw : Float) :
    (s.recordReward previous chosen raw).1.kind = s.kind := by
  cases s <;> rfl

theorem kind_decide [Dice γ] (s : Strategy L γ) (state : StateVector) (previous : Protocol)
    (measured : Cost) : (s.decide state previous measured).state.kind = s.kind := by
  cases s <;> rfl

/-- A decision waits behind all others. -/
theorem Accounts.recordDecision {s : Strategy L γ} (h : s.Accounts settings history rows waiting)
    (d : FiledDecision) :
    (s.recordDecision d.previous d.chosen d.state).Accounts settings history rows (waiting ++ [d]) := by
  cases s with
  | quadratic q => exact Filing.Accounts.recordDecision h d
  | staticOffline s => exact h
  | perAction p =>
    refine ⟨h.1, ?_⟩
    -- the encoding depends on the option, which is the one of the settings
    have := Filing.Accounts.recordDecision h.2 d
    rwa [← h.1] at this ⊢
  | single s => exact Filing.Accounts.recordDecision h d
  | reduced r => exact h
  | ruleBased => trivial

/-- The reward of the oldest waiting decision is accepted and resolves it. -/
theorem Accounts.recordReward {s : Strategy L γ} {d : FiledDecision}
    (h : s.Accounts settings history rows (d :: waiting)) (raw : Float) :
    (s.recordReward d.previous d.chosen raw).2 = .ok () ∧
      (s.recordReward d.previous d.chosen raw).1.Accounts settings history (rows ++ [d.resolved raw])
        waiting := by
  cases s with
  | quadratic q =>
    obtain ⟨b', hb', hacc⟩ := Filing.Accounts.recordReward (f := pairFiling) h raw
    rw [List.append_assoc] at hacc
    simp only [Strategy.recordReward, Quadratic.recordReward, Quadratic.filing, hb']
    exact ⟨trivial, hacc⟩
  | staticOffline s => exact ⟨rfl, h⟩
  | perAction p =>
    obtain ⟨hone, hp⟩ := h
    obtain ⟨b', hb', hacc⟩ := Filing.Accounts.recordReward hp raw
    rw [List.append_assoc] at hacc
    simp only [Strategy.recordReward, PerAction.recordReward, PerAction.filing, hone, hb']
    exact ⟨trivial, rfl, hacc⟩
  | single s =>
    obtain ⟨b', hb', hacc⟩ := Filing.Accounts.recordReward (f := jointFiling) h raw
    rw [List.append_assoc] at hacc
    simp only [Strategy.recordReward, Single.recordReward, hb']
    exact ⟨trivial, hacc⟩
  | reduced r => exact ⟨rfl, h⟩
  | ruleBased => exact ⟨rfl, trivial⟩

/-- Deciding keeps the account, whether it succeeds or not. -/
theorem Accounts.decide [Dice γ] {s : Strategy L γ} (h : s.Accounts settings history rows waiting)
    (state : StateVector) (previous : Protocol) (measured : Cost) :
    (s.decide state previous measured).state.Accounts settings history rows waiting := by
  cases s with
  | quadratic q => exact Filing.Accounts.of_sameStores h (q.sameStores_decide state previous measured)
  | staticOffline s =>
    exact Filing.Accounts.of_sameStores h (s.sameStores_decide state previous measured)
  | perAction p =>
    exact ⟨(p.oneHot_decide state previous measured).trans h.1,
      h.2.of_sameStores (p.sameStores_decide state previous measured)⟩
  | single s => exact Filing.Accounts.of_sameStores h (s.sameStores_decide state measured)
  | reduced r => exact Filing.Accounts.of_sameStores h (r.sameStores_decide state measured)
  | ruleBased => trivial

end Strategy

/-! ## What the log is shown -/

namespace StrategyKind

/-- The strategies that learn from the rewards of their own decisions. -/
def learnsOnline : StrategyKind → Bool
  | quadratic | perAction | single => true
  | staticOffline | reduced | ruleBased => false

/-- The state columns of a state in the log: the state itself, but for the strategy with one model
per protocol under the one-hot option, which has stand-ins in place of the two flags. -/
def columnsOf (settings : StrategySettings) (kind : StrategyKind) (state : StateVector) : Features :=
  if kind = perAction ∧ settings.oneHot then state.withoutFlags ++ [droppedFlag, droppedFlag]
  else state.toList

/-- The state columns that a strategy of a kind shows for a decision just rewarded. -/
def shown (settings : StrategySettings) (history : List HistoryRow) (d : FiledDecision) :
    StrategyKind → Option Features
  | staticOffline =>
    (pairFiling.rowsAt (d.previous, d.chosen) history).getLast?.map fun row => row.state.toList
  | reduced | ruleBased => none
  | kind => some (kind.columnsOf settings d.state)

theorem shown_of_learnsOnline {kind : StrategyKind} (hkind : kind.learnsOnline = true)
    (settings : StrategySettings) (history : List HistoryRow) (d : FiledDecision) :
    kind.shown settings history d = some (kind.columnsOf settings d.state) := by
  cases kind <;> first | rfl | cases hkind

/-- What is shown is the decision's own state, but for the frozen pairwise strategy, which shows that
of the last history row of the pair. -/
theorem shown_own_iff {kind : StrategyKind} {settings : StrategySettings} {history : List HistoryRow}
    {d : FiledDecision} {features : Features} (h : kind.shown settings history d = some features) :
    features = kind.columnsOf settings d.state ↔
      (kind = staticOffline →
        (pairFiling.rowsAt (d.previous, d.chosen) history).getLast?.map HistoryRow.state =
          some d.state) := by
  by_cases hkind : kind.learnsOnline = true
  · rw [shown_of_learnsOnline hkind] at h
    refine iff_of_true (Option.some.inj h).symm ?_
    rintro rfl
    cases hkind
  cases kind with
  | staticOffline =>
    obtain ⟨row, hrow, rfl⟩ := Option.map_eq_some_iff.mp h
    show row.state.toList = d.state.toList ↔ _
    rw [hrow, Option.map_some]
    constructor
    · intro hstate _
      rw [StateVector.toList_inj hstate]
    · intro hstate
      rw [Option.some.inj (hstate rfl)]
  | reduced => cases h
  | ruleBased => cases h
  | quadratic => exact (hkind rfl).elim
  | perAction => exact (hkind rfl).elim
  | single => exact (hkind rfl).elim

end StrategyKind

/-- The row resolved last is the last one under its key. -/
theorem Filing.Accounts.latest?_resolved {κ : Type} [Indexed κ] [DecidableEq κ] {f : Filing κ}
    {b : Buckets κ L} {rows : List HistoryRow} {d : FiledDecision} {raw : Float}
    {waiting : List FiledDecision} (h : f.Accounts b (rows ++ [d.resolved raw]) waiting) :
    f.latest? b d.previous d.chosen = some (f.restore (f.encodeDecision d)) := by
  rw [h.latest?_eq, Filing.rowsAt_concat, FiledDecision.resolved, if_pos rfl, List.getLast?_concat]
  rfl

theorem restore_stateRow (oneHot : Bool) (d : FiledDecision) :
    (actionFiling oneHot).restore ((actionFiling oneHot).encodeDecision d) =
      if oneHot then d.state.withoutFlags ++ [droppedFlag, droppedFlag] else d.state.toList := by
  cases oneHot <;> rfl

theorem restore_jointRow (d : FiledDecision) :
    jointFiling.restore (jointFiling.encodeDecision d) = d.state.toList :=
  List.take_left' d.state.length_toList

namespace Strategy

variable {settings : StrategySettings} {history rows : List HistoryRow} {waiting : List FiledDecision}

/-- What is shown for the decision rewarded last. -/
theorem Accounts.previousFeatures_eq {s : Strategy L γ} {d : FiledDecision} {raw : Float}
    (h : s.Accounts settings history (rows ++ [d.resolved raw]) waiting) :
    s.previousFeatures d.previous d.chosen = s.kind.shown settings history d := by
  cases s with
  | quadratic q =>
    -- the decision is the last of all rows, hence the last under its key
    rw [Accounts, ← List.append_assoc] at h
    exact h.latest?_resolved
  | staticOffline s => exact Filing.Accounts.latest?_eq (f := pairFiling) h d.previous d.chosen
  | perAction p =>
    obtain ⟨hone, hp⟩ := h
    rw [← List.append_assoc] at hp
    have hlatest := hp.latest?_resolved
    rw [restore_stateRow] at hlatest
    show (actionFiling p.oneHot).latest? p.buckets d.previous d.chosen =
      some (StrategyKind.perAction.columnsOf settings d.state)
    rw [hone, hlatest, StrategyKind.columnsOf]
    simp only [true_and]
  | single s =>
    rw [Accounts, ← List.append_assoc] at h
    have hlatest := h.latest?_resolved
    rw [restore_jointRow] at hlatest
    exact hlatest
  | reduced r => rfl
  | ruleBased => rfl

end Strategy

end AdaptiveConsensus
