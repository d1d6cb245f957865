import AdaptiveConsensus.Proofs.Episode.Faults
import AdaptiveConsensus.Proofs.Strategy.Views

/-!
# What the directives of a run depend on

Two runs of one setup are compared: strategies of one kind, with the same settings, history, source of
randomness and warm-up. Their reports may differ in all that the strategy does not use, and so may their
logs and clocks. What differs does get into the queue and into the log, but never into a strategy, so
that both runs send the same directives.

- `Controller.Paired`: two controllers that differ in queued protocols and costs and in the log only.
- `Handling.paired_next`: they stay so when they handle reports of one view, and answer alike.
- `Handling.Chained`: calls of which each meets what the one before it left.
- `directives_of_views`: the two runs give the same directives.
-/

namespace AdaptiveConsensus

open AdaptiveConsensus.Random Handling

variable {L : Learner} {γ : Type}

/-- Whether the log refused a row. -/
def Effect.unwritten : Effect → Bool
  | write _ (.error _) => true
  | _ => false

namespace Controller

/-! ## Two controllers -/

/-- Two controllers with the same strategy, which uses `view` of a report. Their queues may differ in
what it does not use, and their logs in everything. -/
structure Paired (view : StateReport → View) (c c' : Controller L γ) : Prop where
  uses : c.strategy.view = view
  strategy : c'.strategy = c.strategy
  pending : c'.pending.map c.strategy.kind.address = c.pending.map c.strategy.kind.address
  warmup : c'.warmup = c.warmup
  episode : c'.episode = c.episode

variable {view : StateReport → View} {c c' : Controller L γ} {r r' : StateReport}

theorem Paired.relog (hp : Paired view c c') (log log' : TrainingLog) :
    Paired view { c with log := log } { c' with log := log' } :=
  ⟨hp.uses, hp.strategy, hp.pending, hp.warmup, hp.episode⟩

/-- One decision is due in both or in none, and at the same address. -/
theorem Paired.due (hp : Paired view c c') :
    c'.due?.map c.strategy.kind.address = c.due?.map c.strategy.kind.address := by
  have hpending := hp.pending
  rw [due?, due?]
  generalize c.pending = queue at hpending ⊢
  generalize c'.pending = queue' at hpending ⊢
  rcases queue with - | ⟨d, - | ⟨next, rest⟩⟩ <;>
    rcases queue' with - | ⟨d', - | ⟨next', rest'⟩⟩ <;> simp_all

/-! ## Resolving -/

/-- If the log refuses no row, resolving fails only if the strategy refuses the throughput. -/
theorem isOk_resolve {d : PendingDecision} {raw : Float} (hdue : c.due? = some d)
    (hwritten : ∀ e ∈ c.resolveEffects raw, e.unwritten = false) :
    (c.resolve raw).2.isOk = (c.strategy.recordReward d.previous d.chosen raw).2.isOk := by
  obtain ⟨next, rest, hpending⟩ := due?_eq_some hdue
  rw [resolveEffects, hpending] at hwritten
  rw [resolve, hpending]
  dsimp only at hwritten ⊢
  cases hreward : (c.strategy.recordReward d.previous d.chosen raw).2 with
  | error e =>
    rw [credit]
    dsimp only
    rcases hpair : c.strategy.recordReward d.previous d.chosen raw with ⟨strategy, e' | ⟨⟩⟩
    · rfl
    · rw [hpair] at hreward
      cases hreward
  | ok _ =>
    cases hcredit : (credit { c with pending := next :: rest } d raw).2 with
    | ok _ => rfl
    | error e =>
      -- only a refused row is left as a cause
      obtain ⟨row, cause, -, hmem⟩ := credit_error (c := { c with pending := next :: rest }) hreward hcredit
      cases hwritten _ hmem

/-- Two such controllers resolve alike on reports of one view, and stay what they are. -/
theorem Paired.resolve (hp : Paired view c c') (hview : view r = view r')
    (hwritten : ∀ e ∈ c.resolveEffects r.reward, e.unwritten = false)
    (hwritten' : ∀ e ∈ c'.resolveEffects r'.reward, e.unwritten = false) :
    (c'.resolve r'.reward).2.isOk = (c.resolve r.reward).2.isOk ∧
      Paired view (c.resolve r.reward).1 (c'.resolve r'.reward).1 := by
  have hdues := hp.due
  rcases c.resolve_due r.reward with ⟨hdue, hresolve⟩ | ⟨d, rest, hdue, hqueue, hleft, hstrategy⟩ <;>
    rcases c'.resolve_due r'.reward with ⟨hdue', hresolve'⟩ |
      ⟨d', rest', hdue', hqueue', hleft', hstrategy'⟩ <;>
    rw [hdue, hdue'] at hdues
  · rw [hresolve, hresolve']
    exact ⟨rfl, hp⟩
  · cases hdues
  · cases hdues
  have haddress : c.strategy.kind.address d = c.strategy.kind.address d' :=
    (Option.some.inj hdues).symm
  have hrests : rest'.map c.strategy.kind.address = rest.map c.strategy.kind.address := by
    have hpending := hp.pending
    rw [hqueue, hqueue', List.map_cons, List.map_cons] at hpending
    exact (List.cons.inj hpending).2
  -- the strategy hears the same, from whichever run
  have hreward : c'.strategy.recordReward d'.previous d'.chosen r'.reward =
      c.strategy.recordReward d.previous d.chosen r.reward := by
    rw [hp.strategy]
    refine (Strategy.recordReward_view ?_ haddress).symm
    rw [hp.uses, hview]
  obtain ⟨-, hepisode, hwarmup⟩ := resolve_queue c r.reward
  obtain ⟨-, hepisode', hwarmup'⟩ := resolve_queue c' r'.reward
  refine ⟨?_, ?_, ?_, ?_, ?_, ?_⟩
  · rw [isOk_resolve hdue hwritten, isOk_resolve hdue' hwritten', hreward]
  · rw [hstrategy, Strategy.view_recordReward, hp.uses]
  · rw [hstrategy, hstrategy', hreward]
  · rw [hstrategy, Strategy.kind_recordReward, hleft, hleft', hrests]
  · rw [hwarmup, hwarmup', hp.warmup]
  · rw [hepisode, hepisode', hp.episode]

/-! ## Answering -/

variable [Dice γ]

/-- Two such controllers decide alike on reports of one view, and stay what they are. -/
theorem Paired.choose (hp : Paired view c c') (hview : view r = view r') (measured measured' : Cost) :
    (c'.choose r' measured').outcome.toOption = (c.choose r measured).outcome.toOption ∧
      Paired view (c.choose r measured).controller (c'.choose r' measured').controller := by
  have hviews : c.strategy.view r = c.strategy.view r' := by rw [hp.uses, hview]
  have halike : (c.strategy.decide r.state r.current measured).Alike
      (c'.strategy.decide r'.state r'.current measured') := by
    rw [hp.strategy, Strategy.decide_view hviews]
    exact c.strategy.decide_clock r'.state r'.current measured measured'
  have hstate := halike.1
  have hkind := c.strategy.kind_decide r.state r.current measured
  have huses := (c.strategy.view_decide r.state r.current measured).trans hp.uses
  rw [Controller.choose, Controller.choose]
  dsimp only
  rcases halike.outcomes with ⟨e, e', hanswer, hanswer'⟩ | ⟨choice, choice', hanswer, hanswer', hsame⟩
  · rw [hanswer, hanswer']
    refine ⟨rfl, huses, hstate.symm, ?_, hp.warmup, hp.episode⟩
    rw [hkind]
    exact hp.pending
  · rw [hanswer, hanswer']
    dsimp only
    have hviews' : (c.strategy.decide r.state r.current measured).state.view r =
        (c.strategy.decide r.state r.current measured).state.view r' := by rw [huses, hview]
    have hfile := Strategy.recordDecision_view hviews' choice.protocol
    refine ⟨by rw [hsame], ?_, ?_, ?_, hp.warmup, congrArg (· + 1) hp.episode⟩
    · rw [Strategy.view_recordDecision, huses]
    · rw [hfile, ← hstate, hsame]
    · rw [Strategy.kind_recordDecision, hkind, List.map_append, List.map_append, hp.pending]
      refine congrArg (_ ++ [·]) ?_
      rw [← hsame]
      exact (StrategyKind.address_of_view hviews choice.protocol choice.cost choice'.cost).symm

/-- Two such controllers answer alike. -/
theorem Paired.answer (hp : Paired view c c') (hview : view r = view r') (measured measured' : Cost) :
    (c'.answer r' measured').outcome.toOption = (c.answer r measured).outcome.toOption ∧
      Paired view (c.answer r measured).controller (c'.answer r' measured').controller := by
  have hwarm : c'.inWarmup = c.inWarmup := by rw [inWarmup, inWarmup, hp.warmup, hp.episode]
  rw [Controller.answer, Controller.answer, hwarm]
  by_cases h : c.inWarmup = true
  · rw [if_pos h, if_pos h]
    exact ⟨rfl, hp.uses, hp.strategy, hp.pending, hp.warmup, congrArg (· + 1) hp.episode⟩
  · rw [if_neg h, if_neg h]
    exact hp.choose hview measured measured'

end Controller

namespace Handling

open Controller

variable [Dice γ] {view : StateReport → View} {c c' : Controller L γ} {h h' : Handling L γ}

/-- The log took every row of the call. -/
def Written (h : Handling L γ) : Prop :=
  ∀ e ∈ h.effects, e.unwritten = false

instance (h : Handling L γ) : Decidable h.Written :=
  inferInstanceAs (Decidable (∀ e ∈ h.effects, e.unwritten = false))

/-- The directive that the call gave, if it gave one. -/
def directive? (h : Handling L γ) : Option Directive :=
  h.reply.toOption

theorem Written.resolving (hwritten : h.Written) :
    ∀ e ∈ h.before.resolveEffects h.report.reward, e.unwritten = false := by
  intro e he
  refine hwritten e ?_
  rw [effects, Controller.effects]
  rcases h.before.resolve h.report.reward with ⟨c, err | ⟨⟩⟩
  · exact he
  · exact List.mem_append_left _ he

/-- Two controllers that differ in what the strategy does not use handle reports of one view alike, and
stay what they are. -/
theorem paired_next (hp : Paired view h.before h'.before) (hview : view h.report = view h'.report)
    (hwritten : h.Written) (hwritten' : h'.Written) :
    h'.directive? = h.directive? ∧ Paired view h.next h'.next := by
  obtain ⟨hok, hleft⟩ := hp.resolve hview hwritten.resolving hwritten'.resolving
  rw [directive?, directive?, reply, reply, next, next, handled, handled, handleReport, handleReport]
  generalize h.before.resolve h.report.reward = resolved at hok hleft ⊢
  generalize h'.before.resolve h'.report.reward = resolved' at hok hleft ⊢
  rcases resolved with ⟨c, e | ⟨⟩⟩ <;> rcases resolved' with ⟨c', e' | ⟨⟩⟩
  · exact ⟨rfl, hleft⟩
  · cases hok
  · cases hok
  · exact hleft.answer hview h.measured h'.measured

/-! ## Runs -/

/-- Calls of which each meets what the one before it left, but for the log. The first meets `c`. -/
def Chained : Controller L γ → List (Handling L γ) → Prop
  | _, [] => True
  | c, h :: rest => (∃ log, h.before = { c with log := log }) ∧ Chained h.next rest

theorem chained_of_relog {calls : List (Handling L γ)} {log : TrainingLog}
    (hc : Chained { c with log := log } calls) : Chained c calls := by
  cases calls with
  | nil => trivial
  | cons h rest => exact hc

/-- The reports of a run are handled one after the other. -/
theorem chained_handlings (c : Controller L γ) (events : List Event) :
    Chained c (c.handlings events) := by
  induction events generalizing c with
  | nil => trivial
  | cons e rest ih =>
    cases e with
    | report r measured => exact ⟨⟨c.log, rfl⟩, ih _⟩
    | malformed cause => exact ih c
    | flush => exact chained_of_relog (ih { c with log := c.log.flush.1 })
    | relog log => exact chained_of_relog (ih { c with log := log })

/-- Two controllers that differ in what the strategy does not use give the same directives, report by
report, as long as the reports have one view. -/
theorem directives_of_paired {calls calls' : List (Handling L γ)} (hp : Paired view c c')
    (hc : Chained c calls) (hc' : Chained c' calls') (hwritten : ∀ h ∈ calls, h.Written)
    (hwritten' : ∀ h ∈ calls', h.Written)
    (hviews : calls.map (fun h => view h.report) = calls'.map fun h => view h.report) :
    calls.map directive? = calls'.map directive? := by
  induction calls generalizing c c' calls' with
  | nil =>
    cases calls' with
    | nil => rfl
    | cons h' rest' => cases hviews
  | cons h rest ih =>
    cases calls' with
    | nil => cases hviews
    | cons h' rest' =>
      obtain ⟨hview, hviews⟩ := List.cons.inj hviews
      obtain ⟨⟨log, hbefore⟩, hrest⟩ := hc
      obtain ⟨⟨log', hbefore'⟩, hrest'⟩ := hc'
      have hmet : Paired view h.before h'.before := by
        rw [hbefore, hbefore']
        exact hp.relog log log'
      obtain ⟨hanswer, hnext⟩ := paired_next hmet hview (hwritten h List.mem_cons_self)
        (hwritten' h' List.mem_cons_self)
      rw [List.map_cons, List.map_cons, hanswer, ih hnext hrest hrest'
        (fun h hh => hwritten h (List.mem_cons_of_mem _ hh))
        (fun h hh => hwritten' h (List.mem_cons_of_mem _ hh)) hviews]

end Handling

variable [Dice γ]

/-- Two runs of one setup whose reports agree, one by one, in what the strategy uses give the same
directives, and fail to give one on the same reports. Clocks, logs and what else happens may differ, as
long as the logs take all rows. -/
theorem directives_of_views (kind : StrategyKind) (settings : StrategySettings)
    (history : List HistoryRow) (rng : γ) (warmup : Nat) (log log' : TrainingLog)
    (events events' : List Event)
    (hwritten : ∀ h ∈ (runStart (L := L) kind settings history rng log warmup).handlings events,
      h.Written)
    (hwritten' : ∀ h ∈ (runStart (L := L) kind settings history rng log' warmup).handlings events',
      h.Written)
    (hviews :
      ((runStart (L := L) kind settings history rng log warmup).handlings events).map
          (fun h => kind.view settings.oneHot h.report) =
        ((runStart (L := L) kind settings history rng log' warmup).handlings events').map
          (fun h => kind.view settings.oneHot h.report)) :
    ((runStart (L := L) kind settings history rng log warmup).handlings events).map directive? =
      ((runStart (L := L) kind settings history rng log' warmup).handlings events').map directive? := by
  have hstart : Controller.Paired (kind.view settings.oneHot)
      (runStart (L := L) kind settings history rng log warmup)
      (runStart (L := L) kind settings history rng log' warmup) :=
    ⟨Strategy.view_build kind settings history rng, rfl, rfl, rfl, rfl⟩
  exact directives_of_paired hstart (chained_handlings _ events) (chained_handlings _ events') hwritten
    hwritten' hviews

/-- Four reports that came while some protocols ran. -/
def reportsUnder (currents : List Protocol) (measured : Cost) : List Event :=
  (currents.zip [900, 1200, 700, 1100]).map fun (current, throughput) =>
    .report ⟨⟨0.5, 12, 1024, 6, 0, 1⟩, current, throughput⟩ measured

/-- A log that takes every row. -/
def reliableLog : TrainingLog :=
  ⟨BufferedDevice.ofDevice Device.reliable, 0, none⟩

/-- Without the one-hot option, the strategy with one model per protocol sends the same directives
whatever protocols ran. -/
theorem directives_of_reportsUnder :
    ((runStart (L := Forest.learner ⟨1, 1⟩) .perAction ⟨.ofLimit 2, false⟩ faultHistory (Xoshiro.ofSeed 0)
        reliableLog 1).handlings
          (reportsUnder [.pbft, .sbft, .prime, .pbft] Cost.free)).map directive? =
      ((runStart (L := Forest.learner ⟨1, 1⟩) .perAction ⟨.ofLimit 2, false⟩ faultHistory
        (Xoshiro.ofSeed 0) reliableLog 1).handlings
          (reportsUnder [.prime, .zyzzyva, .cheapBft, .sbft] ⟨1, 2⟩)).map directive? := by
  refine directives_of_views .perAction ⟨.ofLimit 2, false⟩ faultHistory (Xoshiro.ofSeed 0) 1 reliableLog
    reliableLog _ _ ?_ ?_ ?_
  · decide +kernel
  · decide +kernel
  · decide +kernel

end AdaptiveConsensus
