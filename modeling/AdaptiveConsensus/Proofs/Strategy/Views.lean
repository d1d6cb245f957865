import AdaptiveConsensus.Episode.Controller
import AdaptiveConsensus.Proofs.Experience.Strategies

/-!
# What a strategy sees of a report

A report tells six features, the protocol that ran and the throughput. No strategy but the pairwise one
uses all of it. `StrategyKind.view` is what a strategy of a kind uses; the rest of a report never comes
into its state.

- `Strategy.decide_view`, `Strategy.recordDecision_view`, `Strategy.recordReward_view`: a strategy treats
  reports of one view alike.
- `Strategy.decide_clock`: how long a decision takes changes neither the decision nor the strategy.
-/

namespace AdaptiveConsensus

open AdaptiveConsensus.Random

/-- The part of a report that a strategy uses: columns of the state, the protocol that ran and the
throughput, the latter two if it uses them. -/
structure View where
  columns : Features
  current : Option Protocol
  reward : Option Float
  deriving DecidableEq

namespace StrategyKind

/-- What a strategy of a kind uses of a report. The one-hot option matters to one kind only. -/
def view (kind : StrategyKind) (oneHot : Bool) (r : StateReport) : View :=
  match kind with
  | quadratic => ⟨r.state.toList, some r.current, some r.reward⟩
  | staticOffline => ⟨r.state.toList, some r.current, none⟩
  | perAction =>
    if oneHot then ⟨r.state.withoutFlags, some r.current, some r.reward⟩
    else ⟨r.state.toList, none, some r.reward⟩
  | single => ⟨r.state.toList, none, some r.reward⟩
  | reduced => ⟨[r.state.requestSize], none, none⟩
  | ruleBased => ⟨[r.state.proposalSlowness], none, none⟩

/-- What a strategy of a kind uses of a decision when the throughput comes. -/
def address (kind : StrategyKind) (d : PendingDecision) : Option Protocol × Protocol :=
  match kind with
  | quadratic => (some d.previous, d.chosen)
  | _ => (none, d.chosen)

theorem address_chosen {kind : StrategyKind} {d d' : PendingDecision}
    (h : kind.address d = kind.address d') : d.chosen = d'.chosen := by
  cases kind <;> exact congrArg Prod.snd h

/-! ## What a view tells -/

variable {oneHot : Bool} {r r' : StateReport}

/-- The pairwise strategy uses all of a report. -/
theorem quadratic_view (h : quadratic.view oneHot r = quadratic.view oneHot r') : r = r' := by
  obtain ⟨state, current, reward⟩ := r
  obtain ⟨state', current', reward'⟩ := r'
  simp only [view, View.mk.injEq, Option.some.injEq] at h
  obtain ⟨hstate, rfl, rfl⟩ := h
  rw [StateVector.toList_inj hstate]

theorem staticOffline_view (h : staticOffline.view oneHot r = staticOffline.view oneHot r') :
    r.state = r'.state ∧ r.current = r'.current := by
  simp only [view, View.mk.injEq, Option.some.injEq] at h
  exact ⟨StateVector.toList_inj h.1, h.2.1⟩

/-- The strategy with one model per protocol uses what its feature rows keep. -/
theorem perAction_view (h : perAction.view oneHot r = perAction.view oneHot r') :
    stateRow oneHot r.state r.current = stateRow oneHot r'.state r'.current ∧ r.reward = r'.reward := by
  cases oneHot <;> simp_all [view, stateRow]

theorem single_view (h : single.view oneHot r = single.view oneHot r') :
    r.state = r'.state ∧ r.reward = r'.reward := by
  simp only [view, View.mk.injEq, Option.some.injEq] at h
  exact ⟨StateVector.toList_inj h.1, h.2.2⟩

theorem reduced_view (h : reduced.view oneHot r = reduced.view oneHot r') :
    r.state.requestSize = r'.state.requestSize := by
  simpa [view] using h

theorem ruleBased_view (h : ruleBased.view oneHot r = ruleBased.view oneHot r') :
    r.state.proposalSlowness = r'.state.proposalSlowness := by
  simpa [view] using h

/-- Two decisions for one protocol, made on reports of one view, have one address. -/
theorem address_of_view {kind : StrategyKind} (h : kind.view oneHot r = kind.view oneHot r')
    (chosen : Protocol) (cost cost' : Cost) :
    kind.address ⟨r.current, chosen, cost⟩ = kind.address ⟨r'.current, chosen, cost'⟩ := by
  cases kind with
  | quadratic => rw [quadratic_view h]; rfl
  | _ => rfl

end StrategyKind

/-- Two calls that leave the same state and either fail both or choose the same protocol. -/
def Decided.Alike {σ : Type} (d d' : Decided σ) : Prop :=
  d.state = d'.state ∧ d.outcome.map Choice.protocol = d'.outcome.map Choice.protocol

/-- Two such calls fail both or choose both. -/
theorem Decided.Alike.outcomes {σ : Type} {d d' : Decided σ} (h : d.Alike d') :
    (∃ e e', d.outcome = .error e ∧ d'.outcome = .error e') ∨
      ∃ choice choice', d.outcome = .ok choice ∧ d'.outcome = .ok choice' ∧
        choice.protocol = choice'.protocol := by
  have hanswer := h.2
  cases hd : d.outcome <;> cases hd' : d'.outcome <;> rw [hd, hd'] at hanswer
  · exact .inl ⟨_, _, rfl, rfl⟩
  · cases hanswer
  · cases hanswer
  · exact .inr ⟨_, _, rfl, rfl, Except.ok.inj hanswer⟩

theorem Decided.Alike.map {σ τ : Type} {d d' : Decided σ} (h : d.Alike d') (f : σ → τ) :
    (d.map f).Alike (d'.map f) :=
  ⟨congrArg f h.1, h.2⟩

variable {L : Learner} {γ : Type}

/-! ## The clock -/

section

variable [Dice γ] (state : StateVector) (previous : Protocol) (measured measured' : Cost)

theorem Quadratic.decide_clock (q : Quadratic L γ) :
    (q.decide state previous measured).Alike (q.decide state previous measured') := by
  rw [Quadratic.decide, Quadratic.decide]
  rcases q.refresh with ⟨fresh, fits, e | ⟨⟩⟩
  · exact ⟨rfl, rfl⟩
  · dsimp only
    cases (fresh.scoreAll state previous).outcome <;> exact ⟨rfl, rfl⟩

theorem StaticOffline.decide_clock (s : StaticOffline L γ) :
    (s.decide state previous measured).Alike (s.decide state previous measured') := by
  rw [StaticOffline.decide, StaticOffline.decide]
  dsimp only
  cases (s.scoreAll state previous).outcome <;> exact ⟨rfl, rfl⟩

theorem PerAction.decide_clock (p : PerAction L γ) :
    (p.decide state previous measured).Alike (p.decide state previous measured') := by
  rw [PerAction.decide, PerAction.decide]
  dsimp only
  cases (sweep p.stale p.cap (stateRow p.oneHot state previous) Protocol.pool p.buckets
    p.rng).scored.outcome <;> exact ⟨rfl, rfl⟩

theorem Single.decide_clock (s : Single L γ) :
    (s.decide state measured).Alike (s.decide state measured') := by
  rw [Single.decide, Single.decide]
  dsimp only
  split
  · exact ⟨rfl, rfl⟩
  · split
    · exact ⟨rfl, rfl⟩
    · split <;> exact ⟨rfl, rfl⟩

theorem Reduced.decide_clock (r : Reduced L γ) :
    (r.decide state measured).Alike (r.decide state measured') := by
  rw [Reduced.decide, Reduced.decide]
  dsimp only
  split
  · exact ⟨rfl, rfl⟩
  · split
    · exact ⟨rfl, rfl⟩
    · split <;> exact ⟨rfl, rfl⟩

/-- How long a decision takes shows in its cost only. -/
theorem Strategy.decide_clock (s : Strategy L γ) :
    (s.decide state previous measured).Alike (s.decide state previous measured') := by
  cases s with
  | quadratic q => exact (q.decide_clock state previous measured measured').map _
  | staticOffline s => exact (s.decide_clock state previous measured measured').map _
  | perAction p => exact (p.decide_clock state previous measured measured').map _
  | single s => exact (s.decide_clock state measured measured').map _
  | reduced r => exact (r.decide_clock state measured measured').map _
  | ruleBased => exact ⟨rfl, rfl⟩

end

namespace Strategy

/-! ## The view of a strategy -/

/-- The one-hot option, of the strategy that has it. -/
def oneHot : Strategy L γ → Bool
  | perAction p => p.oneHot
  | _ => false

/-- What a strategy uses of a report. -/
def view (s : Strategy L γ) (r : StateReport) : View :=
  s.kind.view s.oneHot r

variable {s : Strategy L γ} {r r' : StateReport}

theorem view_build [Dice γ] (kind : StrategyKind) (settings : StrategySettings)
    (history : List HistoryRow) (rng : γ) :
    (build (L := L) kind settings history rng).strategy.view = kind.view settings.oneHot := by
  funext r
  cases kind <;> rfl

/-- What a strategy uses of a report is fixed when it is built. -/
theorem view_decide [Dice γ] (s : Strategy L γ) (state : StateVector) (previous : Protocol)
    (measured : Cost) : (s.decide state previous measured).state.view = s.view := by
  funext r
  cases s with
  | perAction p =>
    show StrategyKind.perAction.view (p.decide state previous measured).state.oneHot r = _
    rw [p.oneHot_decide]
    rfl
  | _ => rfl

theorem view_recordDecision (s : Strategy L γ) (previous chosen : Protocol) (state : StateVector) :
    (s.recordDecision previous chosen state).view = s.view := by
  funext r
  cases s <;> rfl

theorem view_recordReward (s : Strategy L γ) (previous chosen : Protocol) (raw : Float) :
    (s.recordReward previous chosen raw).1.view = s.view := by
  funext r
  cases s with
  | perAction p =>
    simp only [recordReward, PerAction.recordReward]
    cases p.filing.recordReward? p.buckets previous chosen raw <;> rfl
  | _ => rfl

/-! ## Reports of one view -/

/-- A strategy decides alike on reports of one view. -/
theorem decide_view [Dice γ] (h : s.view r = s.view r') (measured : Cost) :
    s.decide r.state r.current measured = s.decide r'.state r'.current measured := by
  cases s with
  | quadratic q => rw [StrategyKind.quadratic_view h]
  | staticOffline s =>
    obtain ⟨hstate, hcurrent⟩ := StrategyKind.staticOffline_view h
    rw [hstate, hcurrent]
  | perAction p =>
    have hrow : stateRow p.oneHot r.state r.current = stateRow p.oneHot r'.state r'.current :=
      (StrategyKind.perAction_view h).1
    simp only [decide, PerAction.decide]
    rw [hrow]
  | single s =>
    simp only [decide]
    rw [(StrategyKind.single_view h).1]
  | reduced q =>
    simp only [decide, Reduced.decide]
    rw [StrategyKind.reduced_view h]
  | ruleBased =>
    simp only [decide, ruleChoice]
    rw [StrategyKind.ruleBased_view h]

/-- It files decisions for one protocol on such reports alike. -/
theorem recordDecision_view (h : s.view r = s.view r') (chosen : Protocol) :
    s.recordDecision r.current chosen r.state = s.recordDecision r'.current chosen r'.state := by
  cases s with
  | quadratic q => rw [StrategyKind.quadratic_view h]
  | perAction p =>
    have hrow : stateRow p.oneHot r.state r.current = stateRow p.oneHot r'.state r'.current :=
      (StrategyKind.perAction_view h).1
    simp only [recordDecision, PerAction.recordDecision, PerAction.filing, Filing.recordDecision,
      actionFiling]
    rw [hrow]
  | single s =>
    simp only [recordDecision, Single.recordDecision, Filing.recordDecision, jointFiling]
    rw [(StrategyKind.single_view h).1]
  | staticOffline s => rfl
  | reduced q => rfl
  | ruleBased => rfl

/-- It takes the throughputs of such reports alike, for decisions of one address. -/
theorem recordReward_view {d d' : PendingDecision} (h : s.view r = s.view r')
    (hd : s.kind.address d = s.kind.address d') :
    s.recordReward d.previous d.chosen r.reward = s.recordReward d'.previous d'.chosen r'.reward := by
  have hchosen := StrategyKind.address_chosen hd
  cases s with
  | quadratic q =>
    simp only [kind, StrategyKind.address, Prod.mk.injEq, Option.some.injEq] at hd
    rw [StrategyKind.quadratic_view h, hd.1, hd.2]
  | perAction p =>
    simp only [recordReward, PerAction.recordReward, Filing.recordReward?, PerAction.filing,
      actionFiling]
    rw [(StrategyKind.perAction_view h).2, hchosen]
  | single s =>
    simp only [recordReward, Single.recordReward, Filing.recordReward?, jointFiling]
    rw [(StrategyKind.single_view h).2]
  | staticOffline s => rfl
  | reduced q => rfl
  | ruleBased => rfl

end Strategy

end AdaptiveConsensus
