import AdaptiveConsensus.Wire.Message
import AdaptiveConsensus.Proofs.Episode.Effects
import AdaptiveConsensus.Proofs.Experience.Filing

/-!
# Runs as sequences of events

A controller handles reports. In between, messages may come that are no reports, the log may be
written out, and its device may start or stop to refuse writes. `Event` names these, and `after`
and `handlings` say what a sequence of them leaves and which reports were handled on the way, each
with the controller that it met.

From the handlings a run's decisions are read off in two lists: `issues`, the decisions made, in
order, and `departures`, the decisions that left the queue, in order.

- `Controller.after_induction`: what holds at the start and is kept by every change of the log and by
  every report holds throughout.
- `Controller.handlings_getElem?`: a handled report met the controller that the events before it left.
-/

namespace AdaptiveConsensus

open AdaptiveConsensus.Random

/-- What can happen to a controller. -/
inductive Event where
  /-- A report is handled, with the readings of the clock. -/
  | report (r : StateReport) (measured : Cost)
  /-- A message comes that is no report. -/
  | malformed (cause : Message.ReportError)
  /-- The log is written out. -/
  | flush
  /-- The log is exchanged: from now on it takes or refuses what the new one does. -/
  | relog (log : TrainingLog)

/-- A handled report, with the controller that it met. -/
structure Handling (L : Learner) (γ : Type) where
  before : Controller L γ
  report : StateReport
  measured : Cost

/-- A decision as it was made: the episode, the report that it answers, and the choice. -/
structure Issue where
  episode : Nat
  report : StateReport
  choice : Choice
  deriving DecidableEq

namespace Issue

/-- The decision as the controller queues it. -/
def decision (i : Issue) : PendingDecision :=
  ⟨i.report.current, i.choice.protocol, i.choice.cost⟩

/-- The decision as the strategy files it. -/
def filed (i : Issue) : FiledDecision :=
  ⟨i.report.state, i.report.current, i.choice.protocol⟩

end Issue

/-- A decision that left the queue: the episode counter at that time, and the report that came. -/
structure Departure where
  episode : Nat
  decision : PendingDecision
  report : StateReport

namespace Handling

variable {L : Learner} {γ : Type}

/-- The decision that left the queue, if one did. -/
def departure? (h : Handling L γ) : Option Departure :=
  h.before.due?.map fun d => ⟨h.before.episode, d, h.report⟩

/-- The decisions that left the queue in a sequence of handlings. -/
def departures (calls : List (Handling L γ)) : List Departure :=
  calls.filterMap departure?

theorem departures_concat (calls : List (Handling L γ)) (h : Handling L γ) :
    departures (calls ++ [h]) = departures calls ++ h.departure?.toList := by
  rw [departures, List.filterMap_append]
  cases hd : h.departure? <;> simp [departures, hd]

variable [Dice γ]

/-- What handling the report gave. -/
def handled (h : Handling L γ) : Handled L γ :=
  h.before.handleReport h.report h.measured

/-- The controller afterwards. -/
def next (h : Handling L γ) : Controller L γ :=
  h.handled.controller

/-- The answer to the report. -/
def reply (h : Handling L γ) : Except EpisodeError Directive :=
  h.handled.outcome

/-- Whether the report was answered. -/
def Accepted (h : Handling L γ) : Prop :=
  h.reply.isOk = true

instance (h : Handling L γ) : Decidable h.Accepted :=
  inferInstanceAs (Decidable (h.reply.isOk = true))

/-- The calls of the strategy and the log. -/
def effects (h : Handling L γ) : List Effect :=
  h.before.effects h.report h.measured

/-- The decision that was made, if one was. -/
def issue? (h : Handling L γ) : Option Issue :=
  (h.effects.findSome? Effect.choice?).map fun choice => ⟨h.before.episode, h.report, choice⟩

/-- The decisions made in a sequence of handlings. -/
def issues (calls : List (Handling L γ)) : List Issue :=
  calls.filterMap issue?

/-- The rows that were written, or tried to be, in a sequence of handlings. -/
def rows (calls : List (Handling L γ)) : List TrainingRow :=
  calls.flatMap fun h => h.effects.filterMap Effect.row?

/-- The decisions that were credited in a sequence of handlings, with their throughputs. -/
def rewards (calls : List (Handling L γ)) : List (Protocol × Protocol × Float) :=
  calls.flatMap fun h => h.effects.filterMap Effect.rewarded?

theorem issues_concat (calls : List (Handling L γ)) (h : Handling L γ) :
    issues (calls ++ [h]) = issues calls ++ h.issue?.toList := by
  rw [issues, List.filterMap_append]
  cases hi : h.issue? <;> simp [issues, hi]

theorem rows_concat (calls : List (Handling L γ)) (h : Handling L γ) :
    rows (calls ++ [h]) = rows calls ++ h.effects.filterMap Effect.row? := by
  rw [rows, List.flatMap_append, List.flatMap_singleton, rows]

end Handling

namespace Controller

variable {L : Learner} {γ : Type} [Dice γ]

/-- What an event leaves. -/
def step (c : Controller L γ) : Event → Controller L γ
  | .report r measured => (c.handleReport r measured).controller
  | .malformed _ => c
  | .flush => { c with log := c.log.flush.1 }
  | .relog log => { c with log := log }

/-- What a sequence of events leaves. -/
def after (c : Controller L γ) (events : List Event) : Controller L γ :=
  events.foldl step c

/-- The reports handled in a sequence of events. -/
def handlings (c : Controller L γ) : List Event → List (Handling L γ)
  | [] => []
  | .report r measured :: rest => ⟨c, r, measured⟩ :: (c.step (.report r measured)).handlings rest
  | e :: rest => (c.step e).handlings rest

theorem after_append (c : Controller L γ) (events more : List Event) :
    c.after (events ++ more) = (c.after events).after more :=
  List.foldl_append

theorem handlings_append (c : Controller L γ) (events more : List Event) :
    c.handlings (events ++ more) = c.handlings events ++ (c.after events).handlings more := by
  induction events generalizing c with
  | nil => rfl
  | cons e rest ih =>
    cases e with
    | report r measured => exact congrArg (List.cons _) (ih _)
    | malformed cause => exact ih _
    | flush => exact ih _
    | relog log => exact ih _

/-- What holds of a controller and the reports it has handled, and is kept by every change of the log
and by every further report, holds after any sequence of events. -/
theorem after_induction {P : Controller L γ → List (Handling L γ) → Prop}
    (hlog : ∀ c calls log, P c calls → P { c with log := log } calls)
    (hreport : ∀ calls (h : Handling L γ), P h.before calls → P h.next (calls ++ [h]))
    {c : Controller L γ} (hstart : P c []) (events : List Event) :
    P (c.after events) (c.handlings events) := by
  -- the reports handled so far are carried along in front
  have hgeneral : ∀ (events : List Event) (c : Controller L γ) (calls : List (Handling L γ)),
      P c calls → P (c.after events) (calls ++ c.handlings events) := by
    intro events
    induction events with
    | nil =>
      intro c calls h
      rwa [handlings, List.append_nil]
    | cons e rest ih =>
      intro c calls h
      cases e with
      | report r measured =>
        have := ih _ _ (hreport calls ⟨c, r, measured⟩ h)
        rwa [List.append_assoc] at this
      | malformed cause => exact ih c calls h
      | flush => exact ih _ calls (hlog c calls _ h)
      | relog log => exact ih _ calls (hlog c calls log h)
  exact hgeneral events c [] hstart

/-- A handled report met the controller that the events before it left. -/
theorem handlings_getElem? {c : Controller L γ} {events : List Event} {e : Nat} {h : Handling L γ}
    (he : (c.handlings events)[e]? = some h) :
    ∃ before after, events = before ++ .report h.report h.measured :: after ∧
      c.after before = h.before ∧ c.handlings before = (c.handlings events).take e := by
  induction events generalizing c e with
  | nil => cases he
  | cons ev rest ih =>
    -- an event that is no report only prolongs what came before
    have hskip : (c.step ev).handlings rest = c.handlings (ev :: rest) →
        c.handlings [ev] = [] → ∃ before after,
          ev :: rest = before ++ .report h.report h.measured :: after ∧
            c.after before = h.before ∧ c.handlings before = (c.handlings (ev :: rest)).take e := by
      intro hrest hev
      rw [← hrest] at he ⊢
      obtain ⟨before, after, rfl, hbefore, htake⟩ := ih he
      refine ⟨ev :: before, after, rfl, hbefore, ?_⟩
      rw [← htake, ← List.singleton_append, handlings_append, hev]
      rfl
    cases ev with
    | malformed cause => exact hskip rfl rfl
    | flush => exact hskip rfl rfl
    | relog log => exact hskip rfl rfl
    | report r measured =>
      cases e with
      | zero =>
        rw [handlings, List.getElem?_cons_zero] at he
        cases he
        exact ⟨[], rest, rfl, rfl, rfl⟩
      | succ e =>
        rw [handlings, List.getElem?_cons_succ] at he
        obtain ⟨before, after, rfl, hbefore, htake⟩ := ih he
        exact ⟨.report r measured :: before, after, rfl, hbefore, congrArg (List.cons _) htake⟩

end Controller

end AdaptiveConsensus
