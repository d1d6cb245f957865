import AdaptiveConsensus.Forest.Basic
import AdaptiveConsensus.Proofs.Episode.Rounds
import AdaptiveConsensus.Proofs.Episode.Schedule
import AdaptiveConsensus.Proofs.Experience.Strategies
import AdaptiveConsensus.Random.ChaCha

/-!
# The books of a run

The controller queues its decisions in one list, and the strategy files them in buckets of its own.
`Books` keeps the two together through a run: the decisions made are those resolved, in order,
followed by those that wait, and the strategy's account is of exactly the same two lists. Nothing is
assumed of the learner or of the log, so that the books are right after failed calls too.

- `laws_of_rounds`: every run of the program keeps the books, and obeys the laws of the queue.
- `accounts_of_run`: what every bucket holds in every reachable state.
- `rows_of_run`: which row each resolved decision gets in the log, and when its state columns are the
  decision's own.
-/

namespace AdaptiveConsensus

open AdaptiveConsensus.Random

/-- A decision that was credited: as it was made, and the counter and the report when it left the
queue. -/
structure Resolution where
  issue : Issue
  episode : Nat
  report : StateReport

namespace Resolution

/-- The departure of the decision. -/
def departure (r : Resolution) : Departure :=
  ⟨r.episode, r.issue.decision, r.report⟩

/-- The history row that the decision became: the report that it answered, the choice, and the
throughput of the report at which it left. -/
def row (r : Resolution) : HistoryRow :=
  r.issue.filed.resolved r.report.reward

/-- The row of the decision in the log, if the strategy shows it. -/
def logRow? (kind : StrategyKind) (settings : StrategySettings) (history : List HistoryRow)
    (r : Resolution) : Option TrainingRow :=
  (kind.shown settings history r.issue.filed).map fun features =>
    Controller.rowOf r.issue.decision features r.report.reward

end Resolution

variable {L : Learner} {γ : Type} {settings : StrategySettings} {history rows : List HistoryRow}
  {waiting : List FiledDecision}

namespace Controller

/-! ## One report -/

/-- Showing a decision in the log is nothing to the strategy. -/
theorem logRow_strategy (c : Controller L γ) (d : PendingDecision) (throughput : Float) :
    (c.logRow d throughput).1.strategy = c.strategy := by
  rw [logRow]
  cases c.strategy.previousFeatures d.previous d.chosen with
  | none => rfl
  | some features =>
    dsimp only
    rcases c.log.writeRow (rowOf d features throughput) with ⟨log, e | ⟨⟩⟩ <;> rfl

/-- The row written is made of the decision, the throughput and what the strategy shows. -/
theorem logRowEffects_row? (c : Controller L γ) (d : PendingDecision) (throughput : Float) :
    (c.logRowEffects d throughput).filterMap Effect.row? =
      ((c.strategy.previousFeatures d.previous d.chosen).map fun features =>
        rowOf d features throughput).toList := by
  rw [logRowEffects]
  cases c.strategy.previousFeatures d.previous d.chosen <;> rfl

theorem logRowEffects_refused (c : Controller L γ) (d : PendingDecision) (throughput : Float) :
    ∀ x ∈ c.logRowEffects d throughput, x.refused = false := by
  rw [logRowEffects]
  cases c.strategy.previousFeatures d.previous d.chosen <;> simp [Effect.refused]

/-- The oldest decision that waits is credited without refusal, and the row written for it is the one
that its kind of strategy shows. -/
theorem credit_account {c : Controller L γ} {i : Issue}
    (haccount : c.strategy.Accounts settings history rows (i.filed :: waiting)) (raw : Float) :
    (c.credit i.decision raw).1.strategy.kind = c.strategy.kind ∧
      (c.credit i.decision raw).1.strategy.Accounts settings history
        (rows ++ [i.filed.resolved raw]) waiting ∧
      (∀ x ∈ c.creditEffects i.decision raw, x.refused = false) ∧
      (c.creditEffects i.decision raw).filterMap Effect.row? =
        ((c.strategy.kind.shown settings history i.filed).map fun features =>
          rowOf i.decision features raw).toList := by
  have hkind := c.strategy.kind_recordReward i.decision.previous i.decision.chosen raw
  obtain ⟨hok, hnext⟩ : (c.strategy.recordReward i.decision.previous i.decision.chosen raw).2 = .ok () ∧
      (c.strategy.recordReward i.decision.previous i.decision.chosen raw).1.Accounts settings history
        (rows ++ [i.filed.resolved raw]) waiting := haccount.recordReward raw
  rcases hrec : c.strategy.recordReward i.decision.previous i.decision.chosen raw with ⟨s, e | ⟨⟩⟩
  · rw [hrec] at hok
    cases hok
  rw [hrec] at hnext hkind
  -- the strategy is asked what to show after it has learned the throughput
  have hshown : s.previousFeatures i.decision.previous i.decision.chosen =
      s.kind.shown settings history i.filed := hnext.previousFeatures_eq
  rw [credit, creditEffects, hrec]
  dsimp only
  rw [logRow_strategy]
  refine ⟨hkind, hnext, ?_, ?_⟩
  · intro x hx
    rcases List.mem_cons.mp hx with rfl | hx
    · rfl
    · exact logRowEffects_refused _ i.decision raw x hx
  · show (logRowEffects _ i.decision raw).filterMap Effect.row? = _
    rw [logRowEffects_row?]
    dsimp only at hkind ⊢
    rw [hshown, hkind]

/-- Resolving takes the oldest of two waiting decisions, the same from the queue and from the
strategy's account, whether or not the log takes its row. -/
theorem resolve_account {c : Controller L γ} {queued : List Issue}
    (hqueue : c.pending = queued.map Issue.decision)
    (haccount : c.strategy.Accounts settings history rows (queued.map Issue.filed)) (raw : Float) :
    ∃ (left : Option Issue) (rest : List Issue), queued = left.toList ++ rest ∧
      c.due? = left.map Issue.decision ∧
      (c.resolve raw).1.strategy.kind = c.strategy.kind ∧
      (c.resolve raw).1.strategy.Accounts settings history
        (rows ++ left.toList.map fun i => i.filed.resolved raw) (rest.map Issue.filed) ∧
      (∀ x ∈ c.resolveEffects raw, x.refused = false) ∧
      (c.resolveEffects raw).filterMap Effect.row? = left.toList.filterMap fun i =>
        (c.strategy.kind.shown settings history i.filed).map fun features =>
          rowOf i.decision features raw := by
  rw [resolve, resolveEffects, due?, hqueue]
  -- only of two decisions does the first leave
  rcases queued with - | ⟨i, - | ⟨next, rest⟩⟩
  · refine ⟨none, [], rfl, rfl, rfl, ?_, ?_, rfl⟩
    · rwa [← List.append_nil rows] at haccount
    · exact fun x hx => (List.not_mem_nil hx).elim
  · refine ⟨none, [i], rfl, rfl, rfl, ?_, ?_, rfl⟩
    · rwa [← List.append_nil rows] at haccount
    · exact fun x hx => (List.not_mem_nil hx).elim
  · obtain ⟨hkind, hnext, hrefused, hrows⟩ :=
      credit_account (c := { c with pending := (next :: rest).map Issue.decision }) haccount raw
    refine ⟨some i, next :: rest, rfl, rfl, hkind, hnext, hrefused, hrows.trans ?_⟩
    rw [Option.toList_some, List.filterMap_cons]
    cases c.strategy.kind.shown settings history i.filed <;> rfl

variable [Dice γ]

/-- The decision made in answering a report, if one was. -/
def made? (c : Controller L γ) (r : StateReport) (measured : Cost) : Option Issue :=
  ((c.answerEffects r measured).findSome? Effect.choice?).map fun choice => ⟨c.episode, r, choice⟩

/-- Answering shows nothing in the log. -/
theorem answerEffects_row? (c : Controller L γ) (r : StateReport) (measured : Cost) :
    (c.answerEffects r measured).filterMap Effect.row? = [] := by
  rw [answerEffects]
  by_cases hw : c.inWarmup
  · rw [if_pos hw]
    rfl
  · rw [if_neg hw, chooseEffects]
    cases (c.strategy.decide r.state r.current measured).outcome <;> rfl

/-- Answering files the decision that it makes. -/
theorem answer_account {c : Controller L γ} (haccount : c.strategy.Accounts settings history rows waiting)
    (r : StateReport) (measured : Cost) :
    (c.answer r measured).controller.strategy.kind = c.strategy.kind ∧
      (c.answer r measured).controller.strategy.Accounts settings history rows
        (waiting ++ (c.made? r measured).toList.map Issue.filed) ∧
      ∀ x ∈ c.answerEffects r measured, x.refused = false := by
  rw [made?, answer, answerEffects]
  by_cases hw : c.inWarmup
  · rw [if_pos hw, if_pos hw]
    refine ⟨rfl, ?_, fun x hx => (List.not_mem_nil hx).elim⟩
    rwa [List.findSome?_nil, Option.map_none, Option.toList_none, List.map_nil, List.append_nil]
  · rw [if_neg hw, if_neg hw, choose, chooseEffects]
    have hdecide := haccount.decide r.state r.current measured
    have hkind := c.strategy.kind_decide r.state r.current measured
    dsimp only
    cases (c.strategy.decide r.state r.current measured).outcome with
    | error e =>
      refine ⟨hkind, ?_, ?_⟩
      · rwa [← List.append_nil waiting] at hdecide
      · intro x hx
        rw [List.mem_singleton.mp hx]
        rfl
    | ok choice =>
      refine ⟨?_, hdecide.recordDecision ⟨r.state, r.current, choice.protocol⟩, ?_⟩
      · exact (Strategy.kind_recordDecision _ _ _ _).trans hkind
      · intro x hx
        rcases List.mem_cons.mp hx with rfl | hx
        · rfl
        · rw [List.mem_singleton.mp hx]
          rfl

end Controller

/-! ## Whole runs -/

open Handling

variable [Dice γ]

namespace Handling

/-- The decisions of a sequence of handlings that left the queue: the first ones made, each with what is
known of its departure. -/
def resolutions (calls : List (Handling L γ)) : List Resolution :=
  (issues calls).zipWith (fun i d => ⟨i, d.episode, d.report⟩) (departures calls)

/-- The decisions of a sequence of handlings that did not. -/
def unresolved (calls : List (Handling L γ)) : List Issue :=
  (issues calls).drop (departures calls).length

end Handling

/-- After some reports, the decisions made are those resolved followed by those that wait, and the
strategy's account, the queue, the calls of the strategy and the rows of the log all tell the same
about them. -/
structure Books (kind : StrategyKind) (settings : StrategySettings) (history : List HistoryRow)
    (c : Controller L γ) (calls : List (Handling L γ)) (resolved : List Resolution)
    (waiting : List Issue) : Prop where
  issues : issues calls = resolved.map Resolution.issue ++ waiting
  departures : departures calls = resolved.map Resolution.departure
  queue : c.pending = waiting.map Issue.decision
  same_kind : c.strategy.kind = kind
  account : c.strategy.Accounts settings history (resolved.map Resolution.row)
    (waiting.map Issue.filed)
  refused : ∀ h ∈ calls, ∀ x ∈ h.effects, x.refused = false
  rows : Handling.rows calls = resolved.filterMap (Resolution.logRow? kind settings history)
  traced : ∀ h ∈ calls, h.Traced

/-- What a credit leaves is answered, or the log has failed and nothing is decided. -/
theorem next_account {h : Handling L γ} {rows : List HistoryRow} {waiting : List FiledDecision}
    (haccount : (h.before.resolve h.report.reward).1.strategy.Accounts settings history rows waiting)
    (hrefused : ∀ x ∈ h.before.resolveEffects h.report.reward, x.refused = false) :
    h.next.strategy.kind = (h.before.resolve h.report.reward).1.strategy.kind ∧
      h.next.strategy.Accounts settings history rows (waiting ++ h.issue?.toList.map Issue.filed) ∧
      (∀ x ∈ h.effects, x.refused = false) ∧
      h.effects.filterMap Effect.row? =
        (h.before.resolveEffects h.report.reward).filterMap Effect.row? := by
  rcases hresolve : h.before.resolve h.report.reward with ⟨c, e | ⟨⟩⟩ <;> rw [hresolve] at haccount
  · -- the decision has been credited and has left the queue, although the call fails
    have hhandled : h.handled = ⟨c, Work.none, .error e⟩ := by
      rw [handled, Controller.handleReport, hresolve]
    have heffects : h.effects = h.before.resolveEffects h.report.reward ++ [] := by
      rw [effects, Controller.effects, hresolve, List.append_nil]
    rw [issue?_of_effects heffects, next, hhandled, heffects, List.append_nil]
    refine ⟨rfl, ?_, hrefused, rfl⟩
    rwa [← List.append_nil waiting] at haccount
  · have hhandled : h.handled = c.answer h.report h.measured := by
      rw [handled, Controller.handleReport, hresolve]
    have heffects : h.effects =
        h.before.resolveEffects h.report.reward ++ c.answerEffects h.report h.measured := by
      rw [effects, Controller.effects, hresolve]
    obtain ⟨hkind, hanswer, hrefused'⟩ := Controller.answer_account haccount h.report h.measured
    have hissue : h.issue?.toList.map Issue.filed =
        (c.made? h.report h.measured).toList.map Issue.filed := by
      rw [issue?_of_effects heffects, Controller.made?]
      cases (c.answerEffects h.report h.measured).findSome? Effect.choice? <;> rfl
    rw [hissue, next, hhandled, heffects, List.filterMap_append, Controller.answerEffects_row?,
      List.append_nil]
    refine ⟨hkind, hanswer, ?_, rfl⟩
    intro x hx
    exact (List.mem_append.mp hx).elim (hrefused x) (hrefused' x)

namespace Books

variable {kind : StrategyKind} {c : Controller L γ} {calls : List (Handling L γ)}
  {resolved : List Resolution} {waiting : List Issue}

theorem start (kind : StrategyKind) (settings : StrategySettings) (history : List HistoryRow)
    (rng : γ) (log : TrainingLog) (warmup : Nat) :
    Books kind settings history
      (Controller.start (Strategy.build (L := L) kind settings history rng).strategy log warmup)
      [] [] [] where
  issues := rfl
  departures := rfl
  queue := rfl
  same_kind := Strategy.kind_build kind settings history rng
  account := Strategy.accounts_build kind settings history rng
  refused := fun _ hmem => (List.not_mem_nil hmem).elim
  rows := rfl
  traced := fun h _ => h.traced

theorem relog (hb : Books kind settings history c calls resolved waiting) (log : TrainingLog) :
    Books kind settings history { c with log := log } calls resolved waiting :=
  ⟨hb.issues, hb.departures, hb.queue, hb.same_kind, hb.account, hb.refused, hb.rows, hb.traced⟩

/-- Every report keeps the books, also one whose handling fails after a decision was credited. -/
theorem handling {h : Handling L γ}
    (hb : Books kind settings history h.before calls resolved waiting) :
    ∃ resolved' waiting',
      Books kind settings history h.next (calls ++ [h]) resolved' waiting' := by
  obtain ⟨left, rest, hwaiting, hdue, hkind, haccount, hrefused, hrows⟩ :=
    Controller.resolve_account hb.queue hb.account h.report.reward
  obtain ⟨hkind', haccount', hrefused', hrows'⟩ := next_account haccount hrefused
  have hdeparture : h.departure?.toList =
      left.toList.map fun i => ⟨h.before.episode, i.decision, h.report⟩ := by
    rw [departure?, hdue]
    cases left <;> rfl
  -- the queue moves as the list of waiting issues does
  have hqueue : h.next.pending = (rest ++ h.issue?.toList).map Issue.decision := by
    rw [h.progress.queue, hb.queue, hwaiting, hdeparture, List.length_map, ← List.map_drop,
      List.drop_left, List.map_append]
    cases h.issue? <;> rfl
  refine ⟨resolved ++ left.toList.map fun i => ⟨i, h.before.episode, h.report⟩,
    rest ++ h.issue?.toList, ?_, ?_, hqueue, ?_, ?_, ?_, ?_, fun g _ => g.traced⟩
  · have : left.toList.map (Resolution.issue ∘ fun i => ⟨i, h.before.episode, h.report⟩) =
        left.toList := List.map_id _
    rw [issues_concat, hb.issues, hwaiting, List.map_append, List.map_map, this, List.append_assoc,
      List.append_assoc, List.append_assoc]
  · rw [departures_concat, hb.departures, hdeparture, List.map_append, List.map_map]
    rfl
  · rw [hkind', hkind, hb.same_kind]
  · rw [List.map_append, List.map_map, List.map_append]
    exact haccount'
  · intro g hg
    rcases List.mem_append.mp hg with hg | hg
    · exact hb.refused g hg
    · rwa [List.mem_singleton.mp hg]
  · rw [rows_concat, hb.rows, hrows', hrows, hb.same_kind, List.filterMap_append, List.filterMap_map]
    rfl

/-- The resolved decisions are those that the run's two lists tell. -/
theorem resolved_eq (hb : Books kind settings history c calls resolved waiting) :
    resolved = resolutions calls := by
  have hpaired : ∀ rs : List Resolution,
      (rs.map Resolution.issue ++ waiting).zipWith (fun i d => ⟨i, d.episode, d.report⟩)
        (rs.map Resolution.departure) = rs := by
    intro rs
    induction rs with
    | nil => exact List.zipWith_nil_right
    | cons r rest ih => exact congrArg (List.cons r) ih
  rw [resolutions, hb.issues, hb.departures, hpaired]

/-- The decisions that wait are the others. -/
theorem waiting_eq (hb : Books kind settings history c calls resolved waiting) :
    waiting = unresolved calls := by
  rw [unresolved, hb.issues, hb.departures, List.length_map, List.drop_left' (List.length_map _)]

/-- A decision is resolved when the counter is two ahead of its own episode. -/
theorem episode_eq {e₀ : Nat} (hb : Books kind settings history c calls resolved waiting)
    (hl : Ledger e₀ c calls) : ∀ r ∈ resolved, r.episode = r.issue.episode + 2 := by
  have hdeparted := hl.departed_eq
  rw [hb.departures, hb.issues, List.length_map, List.take_left' (List.length_map _), List.map_map,
    List.map_map] at hdeparted
  intro r hr
  exact congrArg Prod.fst (List.map_inj_left.mp hdeparted r hr)

end Books

section

variable (kind : StrategyKind) (settings : StrategySettings) (history : List HistoryRow) (rng : γ)
  (log : TrainingLog) (warmup : Nat) (events : List Event)

/-- The controller of a strategy built on a history. -/
def runStart : Controller L γ :=
  Controller.start (Strategy.build kind settings history rng).strategy log warmup

/-- Every run keeps the books. -/
theorem Books.of_run : ∃ resolved waiting,
    Books kind settings history ((runStart (L := L) kind settings history rng log warmup).after events)
      ((runStart kind settings history rng log warmup).handlings events) resolved waiting := by
  refine Controller.after_induction
    (P := fun c calls => ∃ resolved waiting, Books kind settings history c calls resolved waiting)
    ?_ ?_ ⟨[], [], Books.start kind settings history rng log warmup⟩ events
  · rintro c calls log ⟨resolved, waiting, hb⟩
    exact ⟨resolved, waiting, hb.relog log⟩
  · rintro calls h ⟨resolved, waiting, hb⟩
    exact hb.handling

/-- So does every run of the program, over any queue of messages and into any sink, and it obeys the laws
of the queue. -/
theorem laws_of_rounds {σ ε : Type} [DecisionSink σ ε] (clock : Nat → Cost) (budget : Nat) (sink : σ)
    (messages : List Message) :
    QueueLaws (firstDecision warmup)
        (Controller.run clock budget (runStart (L := L) kind settings history rng log warmup) sink
          messages).controller
        (Controller.calls clock budget (runStart kind settings history rng log warmup) sink messages) ∧
      ∃ resolved waiting, Books kind settings history
        (Controller.run clock budget (runStart (L := L) kind settings history rng log warmup) sink
          messages).controller
        (Controller.calls clock budget (runStart kind settings history rng log warmup) sink messages)
        resolved waiting := by
  obtain ⟨events, hafter, hcalls⟩ := Controller.run_eq_after clock budget
    (runStart (L := L) kind settings history rng log warmup) sink messages
  rw [hafter, hcalls]
  exact ⟨.of_ledger (Ledger.of_run _ log warmup events) schedule_of_accepted,
    Books.of_run kind settings history rng log warmup events⟩

/-- In every reachable state the books are right: the decisions made are those resolved followed by
those in the queue, each in order, and the strategy accounts for exactly these. So with a strategy that
learns online every bucket holds the records of the history rows of its key, then those of the resolved
decisions of its key, and behind them the feature rows of the waiting decisions of its key. Each
resolved decision was credited once, with the throughput of the report two episodes after its own. -/
theorem accounts_of_run : ∃ resolved waiting,
    Books kind settings history ((runStart (L := L) kind settings history rng log warmup).after events)
      ((runStart kind settings history rng log warmup).handlings events) resolved waiting ∧
    Handling.rewards ((runStart (L := L) kind settings history rng log warmup).handlings events) =
      resolved.map (fun r => (r.issue.report.current, r.issue.choice.protocol, r.report.reward)) ∧
    ∀ r ∈ resolved, r.episode = r.issue.episode + 2 := by
  obtain ⟨resolved, waiting, hb⟩ := Books.of_run (L := L) kind settings history rng log warmup events
  refine ⟨resolved, waiting, hb, ?_, ?_⟩
  · rw [rewards_eq, hb.departures, List.map_map]
    rfl
  · exact hb.episode_eq (Ledger.of_run _ log warmup events)

/-- Every row of the log tells one resolved decision, in the order in which they were resolved: the
protocol that ran, the one chosen, the two costs, and the throughput of the report that resolved it.
The state columns are the decision's own, but for the frozen pairwise strategy: there they are so only
where the last history row of the pair happens to tell the same state. -/
theorem rows_of_run : ∃ resolved waiting,
    Books kind settings history ((runStart (L := L) kind settings history rng log warmup).after events)
      ((runStart kind settings history rng log warmup).handlings events) resolved waiting ∧
    ∀ r ∈ resolved, ∀ row, r.logRow? kind settings history = some row →
      row.previous = r.issue.report.current ∧ row.chosen = r.issue.choice.protocol ∧
      row.cost = r.issue.choice.cost ∧ row.throughput = r.report.reward ∧
      (row.features = kind.columnsOf settings r.issue.report.state ↔
        (kind = .staticOffline →
          (pairFiling.rowsAt (r.issue.report.current, r.issue.choice.protocol) history).getLast?.map
            HistoryRow.state = some r.issue.report.state)) := by
  obtain ⟨resolved, waiting, hb⟩ := Books.of_run (L := L) kind settings history rng log warmup events
  refine ⟨resolved, waiting, hb, ?_⟩
  intro r _ row hrow
  obtain ⟨features, hshown, rfl⟩ := Option.map_eq_some_iff.mp hrow
  refine ⟨rfl, rfl, rfl, rfl, ?_⟩
  exact StrategyKind.shown_own_iff hshown

end

/-- One history row of a pair. -/
def frozenHistory : List HistoryRow :=
  [⟨⟨0.75, 21, 256, 6, 0, 1⟩, .pbft, .cheapBft, 800⟩]

/-- Three reports of another state, all answered by the pair's protocol. -/
def frozenEvents : List Event :=
  List.replicate 3 (.report ⟨⟨0.5, 0, 1024, 6, 0, 1⟩, .pbft, 1500⟩ Cost.free)

/-- The controller of the frozen pairwise strategy on that history. -/
def frozenStart : Controller (Forest.learner ⟨1, 1⟩) ChaCha :=
  runStart .staticOffline ⟨.unlimited, false⟩ frozenHistory (ChaCha.ofSeed 0)
    ⟨BufferedDevice.ofDevice Device.reliable, 0, none⟩ 0

/-- The frozen pairwise strategy writes a row whose state is that of no decision of the run. -/
theorem frozenStart_foreign_row :
    ¬ ∀ row ∈ Handling.rows (frozenStart.handlings frozenEvents),
      ∃ i ∈ issues (frozenStart.handlings frozenEvents),
        row.features = StrategyKind.staticOffline.columnsOf ⟨.unlimited, false⟩ i.report.state := by
  decide +kernel

end AdaptiveConsensus
