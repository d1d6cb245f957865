import AdaptiveConsensus.Proofs.Episode.Dependence
import AdaptiveConsensus.Proofs.Strategy.Bucketing
import Mathlib.Data.List.Forall2

/-!
# Runs on other clocks, and from regrouped histories

Two runs of one setup on the same reports may still take different times. The costs get into the queue
and into the rows of the log, and nowhere else. As the text of a row is longer or shorter with its costs,
a device that refuses writes may refuse other rows; if both logs refuse rows in the same calls, the runs
are alike in all but the costs.

A history gets into a run through the strategy that is built on it. A strategy keeps the rows of each
bucket in their order, but not how those of different buckets were mixed. So two histories that differ
only in that give the same runs.

- `Controller.Twins`: two controllers that differ in costs and in the log only.
- `Handling.twins_next`: they stay so when they handle the same report, and do it alike.
- `Handling.alike_of_twins`: so it is with all reports of a run.
- `runs_of_regrouped`: histories with the same rows in every bucket build the same strategy, and their
  runs are alike.
-/

namespace AdaptiveConsensus

open AdaptiveConsensus.Random

variable {L : Learner} {γ : Type}

/-- The decision, whatever it cost. -/
def PendingDecision.costless (d : PendingDecision) : PendingDecision :=
  { d with cost := Cost.free }

theorem PendingDecision.costless_eq {d d' : PendingDecision} (h : d'.costless = d.costless) :
    d'.previous = d.previous ∧ d'.chosen = d.chosen := by
  rw [costless, costless] at h
  injection h with hprevious hchosen
  exact ⟨hprevious, hchosen⟩

/-- The row, whatever its decision cost. -/
def TrainingRow.costless (row : TrainingRow) : TrainingRow :=
  { row with cost := Cost.free }

/-- The report that an event brings. -/
def Event.report? : Event → Option StateReport
  | report r _ => some r
  | _ => none

namespace Controller

/-! ## One report -/

/-- Two controllers that are the same but for the costs of the decisions that wait, and the log. -/
structure Twins (c c' : Controller L γ) : Prop where
  strategy : c'.strategy = c.strategy
  pending : c'.pending.map PendingDecision.costless = c.pending.map PendingDecision.costless
  warmup : c'.warmup = c.warmup
  episode : c'.episode = c.episode

variable {c c' : Controller L γ}

theorem Twins.relog (h : Twins c c') (log log' : TrainingLog) :
    Twins { c with log := log } { c' with log := log' } :=
  ⟨h.strategy, h.pending, h.warmup, h.episode⟩

/-- Crediting succeeds if the strategy takes the throughput and the log takes the row. -/
theorem isOk_credit (c : Controller L γ) (d : PendingDecision) (raw : Float) :
    (c.credit d raw).2.isOk = ((c.strategy.recordReward d.previous d.chosen raw).2.isOk &&
      !(c.creditEffects d raw).any Effect.unwritten) := by
  rw [credit, creditEffects]
  rcases c.strategy.recordReward d.previous d.chosen raw with ⟨strategy, e | ⟨⟩⟩
  · rfl
  · dsimp only [logRow, logRowEffects]
    cases strategy.previousFeatures d.previous d.chosen with
    | none => rfl
    | some features =>
      dsimp only
      rcases c.log.writeRow (rowOf d features raw) with ⟨log, e | ⟨⟩⟩ <;> rfl

theorem credit_strategy (c : Controller L γ) (d : PendingDecision) (raw : Float) :
    (c.credit d raw).1.strategy = (c.strategy.recordReward d.previous d.chosen raw).1 := by
  rw [credit]
  rcases c.strategy.recordReward d.previous d.chosen raw with ⟨strategy, e | ⟨⟩⟩
  · rfl
  · exact logRow_strategy _ d raw

/-- The row of a credited decision, if it has one, but for the cost. -/
theorem creditEffects_costless (c : Controller L γ) (d : PendingDecision) (raw : Float) :
    ((c.creditEffects d raw).filterMap Effect.row?).map TrainingRow.costless =
      match c.strategy.recordReward d.previous d.chosen raw with
      | (_, .error _) => []
      | (strategy, .ok ()) =>
        ((strategy.previousFeatures d.previous d.chosen).map fun features =>
          rowOf d.costless features raw).toList := by
  rw [creditEffects]
  rcases c.strategy.recordReward d.previous d.chosen raw with ⟨strategy, e | ⟨⟩⟩
  · rfl
  · simp only [List.filterMap_cons, Effect.row?, logRowEffects_row?]
    cases strategy.previousFeatures d.previous d.chosen <;> rfl

/-- Twins credit decisions that differ in costs at most alike, if both logs take the row or both refuse
it. -/
theorem Twins.credit (h : Twins c c') {d d' : PendingDecision} (hd : d'.costless = d.costless)
    {raw : Float} (hrefused : (c'.creditEffects d' raw).any Effect.unwritten =
      (c.creditEffects d raw).any Effect.unwritten) :
    (c'.credit d' raw).2.isOk = (c.credit d raw).2.isOk ∧
      Twins (c.credit d raw).1 (c'.credit d' raw).1 ∧
      ((c'.creditEffects d' raw).filterMap Effect.row?).map TrainingRow.costless =
        ((c.creditEffects d raw).filterMap Effect.row?).map TrainingRow.costless := by
  obtain ⟨hprevious, hchosen⟩ := PendingDecision.costless_eq hd
  obtain ⟨hpending, hepisode, hwarmup⟩ := c.credit_queue d raw
  obtain ⟨hpending', hepisode', hwarmup'⟩ := c'.credit_queue d' raw
  refine ⟨?_, ⟨?_, ?_, ?_, ?_⟩, ?_⟩
  · rw [isOk_credit, isOk_credit, hrefused, h.strategy, hprevious, hchosen]
  · rw [credit_strategy, credit_strategy, h.strategy, hprevious, hchosen]
  · rw [hpending, hpending', h.pending]
  · rw [hwarmup, hwarmup', h.warmup]
  · rw [hepisode, hepisode', h.episode]
  · rw [creditEffects_costless, creditEffects_costless, h.strategy, hprevious, hchosen, hd]

/-- Twins resolve alike, if both logs take the row or both refuse it. -/
theorem Twins.resolve (h : Twins c c') {raw : Float}
    (hrefused : (c'.resolveEffects raw).any Effect.unwritten =
      (c.resolveEffects raw).any Effect.unwritten) :
    (c'.resolve raw).2.isOk = (c.resolve raw).2.isOk ∧
      Twins (c.resolve raw).1 (c'.resolve raw).1 ∧
      ((c'.resolveEffects raw).filterMap Effect.row?).map TrainingRow.costless =
        ((c.resolveEffects raw).filterMap Effect.row?).map TrainingRow.costless := by
  have hpending := h.pending
  rw [resolveEffects, resolveEffects] at hrefused ⊢
  rw [Controller.resolve, Controller.resolve]
  -- both queues are as long as each other
  rcases hq : c.pending with - | ⟨d, - | ⟨next, rest⟩⟩ <;>
    rcases hq' : c'.pending with - | ⟨d', - | ⟨next', rest'⟩⟩ <;>
    simp only [hq, hq', List.map_cons, List.map_nil, List.cons.injEq, reduceCtorEq, and_false]
      at hpending hrefused
  · exact ⟨rfl, h, rfl⟩
  · exact ⟨rfl, h, rfl⟩
  · have hleft : Twins { c with pending := next :: rest } { c' with pending := next' :: rest' } :=
      ⟨h.strategy, by simpa using hpending.2, h.warmup, h.episode⟩
    exact hleft.credit hpending.1 hrefused

variable [Dice γ]

/-- Twins choose the same protocol. -/
theorem Twins.choose (h : Twins c c') (r : StateReport) (measured measured' : Cost) :
    (c'.choose r measured').outcome.toOption = (c.choose r measured).outcome.toOption ∧
      Twins (c.choose r measured).controller (c'.choose r measured').controller := by
  have halike := c.strategy.decide_clock r.state r.current measured measured'
  have hstate := halike.1
  rw [Controller.choose, Controller.choose, h.strategy]
  dsimp only
  rcases halike.outcomes with ⟨e, e', hanswer, hanswer'⟩ | ⟨choice, choice', hanswer, hanswer', hsame⟩
  · rw [hanswer, hanswer']
    exact ⟨rfl, hstate.symm, h.pending, h.warmup, h.episode⟩
  · rw [hanswer, hanswer']
    dsimp only
    refine ⟨by rw [hsame], by rw [hstate, hsame], ?_, h.warmup, congrArg (· + 1) h.episode⟩
    rw [List.map_append, List.map_append, h.pending, List.map_singleton, List.map_singleton,
      PendingDecision.costless, PendingDecision.costless, hsame]

/-- Twins answer alike. -/
theorem Twins.answer (h : Twins c c') (r : StateReport) (measured measured' : Cost) :
    (c'.answer r measured').outcome.toOption = (c.answer r measured).outcome.toOption ∧
      Twins (c.answer r measured).controller (c'.answer r measured').controller := by
  have hwarm : c'.inWarmup = c.inWarmup := by rw [inWarmup, inWarmup, h.warmup, h.episode]
  rw [Controller.answer, Controller.answer, hwarm]
  by_cases hin : c.inWarmup = true
  · rw [if_pos hin, if_pos hin]
    exact ⟨rfl, h.strategy, h.pending, h.warmup, congrArg (· + 1) h.episode⟩
  · rw [if_neg hin, if_neg hin]
    exact h.choose r measured measured'

/-- Answering writes no row. -/
theorem answerEffects_unwritten (c : Controller L γ) (r : StateReport) (measured : Cost) :
    (c.answerEffects r measured).any Effect.unwritten = false := by
  rw [answerEffects]
  split
  · rfl
  · rw [chooseEffects]
    cases (c.strategy.decide r.state r.current measured).outcome <;> rfl

end Controller

namespace Handling

open Controller

variable [Dice γ] {c c' : Controller L γ} {h h' : Handling L γ}

/-- Whether the log refused a row of the call. -/
def unwritten (h : Handling L γ) : Bool :=
  h.effects.any Effect.unwritten

/-- Two calls with the same directive, or none, and with the same row, or none; what they leave differs
in costs and in the log only. The rows are those that the calls wrote. -/
structure Alike (h h' : Handling L γ) : Prop where
  directive : h'.directive? = h.directive?
  rows : (h'.effects.filterMap Effect.row?).map TrainingRow.costless =
    (h.effects.filterMap Effect.row?).map TrainingRow.costless
  next : Twins h.next h'.next
  traced : h.Traced ∧ h'.Traced

theorem unwritten_eq (h : Handling L γ) :
    h.unwritten = (h.before.resolveEffects h.report.reward).any Effect.unwritten := by
  rw [unwritten, effects, Controller.effects]
  split
  · rfl
  · rw [List.any_append, answerEffects_unwritten, Bool.or_false]

theorem rows_eq (h : Handling L γ) : h.effects.filterMap Effect.row? =
    (h.before.resolveEffects h.report.reward).filterMap Effect.row? := by
  rw [effects, Controller.effects]
  split
  · rfl
  · rw [List.filterMap_append, answerEffects_row?, List.append_nil]

/-- Twins handle a report alike, if both logs take the row or both refuse it. -/
theorem twins_next (hc : Twins h.before h'.before) (hreport : h'.report = h.report)
    (hrefused : h'.unwritten = h.unwritten) : Alike h h' := by
  rw [unwritten_eq, unwritten_eq, hreport] at hrefused
  obtain ⟨hok, hleft, hrows⟩ := hc.resolve hrefused
  have hanswer : h'.directive? = h.directive? ∧ Twins h.next h'.next := by
    rw [directive?, directive?, reply, reply, Handling.next, Handling.next, handled, handled,
      handleReport, handleReport, hreport]
    generalize h.before.resolve h.report.reward = resolved at hok hleft ⊢
    generalize h'.before.resolve h.report.reward = resolved' at hok hleft ⊢
    rcases resolved with ⟨c, e | ⟨⟩⟩ <;> rcases resolved' with ⟨c', e' | ⟨⟩⟩
    · exact ⟨rfl, hleft⟩
    · cases hok
    · cases hok
    · exact hleft.answer h.report h.measured h'.measured
  refine ⟨hanswer.1, ?_, hanswer.2, h.traced, h'.traced⟩
  rw [rows_eq, rows_eq, hreport, hrows]

/-! ## Runs -/

theorem chained_take {calls : List (Handling L γ)} (hc : Chained c calls) (n : Nat) :
    Chained c (calls.take n) := by
  induction n generalizing c calls with
  | zero => trivial
  | succ n ih =>
    cases calls with
    | nil => trivial
    | cons h rest => exact ⟨hc.1, ih hc.2⟩

/-- Twins handle all reports of a run alike, if their logs refuse rows in the same calls. -/
theorem alike_of_twins {calls calls' : List (Handling L γ)} (hc : Twins c c') (hcalls : Chained c calls)
    (hcalls' : Chained c' calls')
    (hreports : calls'.map Handling.report = calls.map Handling.report)
    (hrefused : calls'.map unwritten = calls.map unwritten) : List.Forall₂ Alike calls calls' := by
  induction calls generalizing c c' calls' with
  | nil =>
    rw [List.map_eq_nil_iff.mp hreports]
    exact .nil
  | cons h rest ih =>
    cases calls' with
    | nil => cases hreports
    | cons h' rest' =>
      obtain ⟨hreport, hreports⟩ := List.cons.inj hreports
      obtain ⟨hrefused, hrefuseds⟩ := List.cons.inj hrefused
      obtain ⟨⟨log, hbefore⟩, hrest⟩ := hcalls
      obtain ⟨⟨log', hbefore'⟩, hrest'⟩ := hcalls'
      have hmet : Twins h.before h'.before := by
        rw [hbefore, hbefore']
        exact hc.relog log log'
      have halike := twins_next hmet hreport hrefused
      exact .cons halike (ih halike.next hrest hrest' hreports hrefuseds)

end Handling

variable [Dice γ]

/-- The reports handled in a run are those among its events. -/
theorem reports_handlings (c : Controller L γ) (events : List Event) :
    (c.handlings events).map Handling.report = events.filterMap Event.report? := by
  induction events generalizing c with
  | nil => rfl
  | cons e rest ih =>
    cases e with
    | report r measured => exact congrArg (List.cons r) (ih _)
    | malformed cause => exact ih c
    | flush => exact ih _
    | relog log => exact ih _

/-! ## Regrouped histories -/

/-- Histories with the same rows in every bucket, in the same order, build the same strategy: the same
stores, models and flags, and the same source of randomness. Later runs on the same reports are alike,
whatever their clocks, as long as their logs refuse rows in the same calls: call by call they give the
same directives, and the same rows but for the costs. -/
theorem runs_of_regrouped {kind : StrategyKind} {settings : StrategySettings}
    {history history' : List HistoryRow}
    (hrows : ∀ previous chosen,
      kind.rowsAt previous chosen history' = kind.rowsAt previous chosen history) (rng : γ) :
    Strategy.build (L := L) kind settings history' rng = Strategy.build kind settings history rng ∧
      ∀ (warmup : Nat) (log log' : TrainingLog) (events events' : List Event) (n : Nat),
        let calls := (runStart (L := L) kind settings history rng log warmup).handlings events
        let calls' := (runStart (L := L) kind settings history' rng log' warmup).handlings events'
        events'.filterMap Event.report? = events.filterMap Event.report? →
        (calls'.take n).map Handling.unwritten = (calls.take n).map Handling.unwritten →
        List.Forall₂ Handling.Alike (calls.take n) (calls'.take n) := by
  have hbuild := Strategy.build_congr (L := L) settings hrows rng
  refine ⟨hbuild, fun warmup log log' events events' n => ?_⟩
  intro calls calls' hreports hrefused
  have hstart : Controller.Twins (runStart (L := L) kind settings history rng log warmup)
      (runStart kind settings history' rng log' warmup) :=
    ⟨congrArg Built.strategy hbuild, rfl, rfl, rfl⟩
  refine Handling.alike_of_twins hstart
    (Handling.chained_take (Handling.chained_handlings _ events) n)
    (Handling.chained_take (Handling.chained_handlings _ events') n) ?_ hrefused
  rw [List.map_take, List.map_take, reports_handlings, reports_handlings, hreports]

/-- Three history rows, two of them for one protocol. -/
def mixedRows : List HistoryRow :=
  [⟨⟨0.75, 21, 256, 6, 0, 1⟩, .pbft, .cheapBft, 800⟩, ⟨⟨1, 3, 512, 6, 1, 0⟩, .sbft, .prime, 950⟩,
    ⟨⟨0.5, 9, 128, 6, 0, 1⟩, .zyzzyva, .cheapBft, 700⟩]

/-- The same rows with those of one protocol side by side. -/
def groupedRows : List HistoryRow :=
  [⟨⟨1, 3, 512, 6, 1, 0⟩, .sbft, .prime, 950⟩, ⟨⟨0.75, 21, 256, 6, 0, 1⟩, .pbft, .cheapBft, 800⟩,
    ⟨⟨0.5, 9, 128, 6, 0, 1⟩, .zyzzyva, .cheapBft, 700⟩]

/-- The strategy with one model per protocol makes the same of both, at three reports, on whichever
clock. -/
theorem runs_of_groupedRows :
    Strategy.build (L := Forest.learner ⟨1, 1⟩) .perAction ⟨.ofLimit 2, true⟩ groupedRows
        (ChaCha.ofSeed 0) =
      Strategy.build .perAction ⟨.ofLimit 2, true⟩ mixedRows (ChaCha.ofSeed 0) ∧
    List.Forall₂ Handling.Alike
      (((runStart (L := Forest.learner ⟨1, 1⟩) .perAction ⟨.ofLimit 2, true⟩ mixedRows (ChaCha.ofSeed 0)
        reliableLog 1).handlings (reportsUnder [.pbft, .sbft, .prime] Cost.free)).take 3)
      (((runStart (L := Forest.learner ⟨1, 1⟩) .perAction ⟨.ofLimit 2, true⟩ groupedRows
        (ChaCha.ofSeed 0) reliableLog 1).handlings
          (.flush :: reportsUnder [.pbft, .sbft, .prime] ⟨1, 2⟩)).take 3) := by
  have hrows : ∀ previous chosen, StrategyKind.perAction.rowsAt previous chosen groupedRows =
      StrategyKind.perAction.rowsAt previous chosen mixedRows := by
    intro previous chosen
    cases chosen <;> simp [StrategyKind.rowsAt, StrategyKind.key, mixedRows, groupedRows]
  refine ⟨(runs_of_regrouped hrows (ChaCha.ofSeed 0)).1,
    (runs_of_regrouped hrows (ChaCha.ofSeed 0)).2 1 _ _ _ _ 3 rfl ?_⟩
  decide +kernel

end AdaptiveConsensus
