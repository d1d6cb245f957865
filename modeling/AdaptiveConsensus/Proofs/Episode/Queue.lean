import AdaptiveConsensus.Proofs.Episode.Runs

/-!
# The queue of a run

Decisions wait in one queue for their throughput. Which decision a report credits depends on the
length of that queue, on the warm-up and on an episode counter that stands still when a call fails.
This file follows the three through whole runs, of any strategy, with any calls failing.

- `Handling.traced`: the decisions and effects that are listed of a call are those of
  `Controller.handleReport`.
- `Handling.progress`: what a report does to the queue, the counter and the warm-up.
- `Ledger.of_run`: how the three are related after any run.
-/

namespace AdaptiveConsensus

open AdaptiveConsensus.Random

variable {L : Learner} {γ : Type}

namespace Controller

/-! ## One report -/

/-- Crediting leaves the queue alone. -/
theorem credit_queue (c : Controller L γ) (d : PendingDecision) (throughput : Float) :
    (c.credit d throughput).1.pending = c.pending ∧
      (c.credit d throughput).1.episode = c.episode ∧
      (c.credit d throughput).1.warmup = c.warmup := by
  rw [credit]
  rcases c.strategy.recordReward d.previous d.chosen throughput with ⟨strategy, e | ⟨⟩⟩
  · exact ⟨rfl, rfl, rfl⟩
  · dsimp only [logRow]
    cases strategy.previousFeatures d.previous d.chosen with
    | none => exact ⟨rfl, rfl, rfl⟩
    | some features =>
      dsimp only
      rcases c.log.writeRow (rowOf d features throughput) with ⟨log, e | ⟨⟩⟩ <;>
        exact ⟨rfl, rfl, rfl⟩

/-- Resolving takes the decision that is due out of the queue, even if crediting it fails. -/
theorem resolve_queue (c : Controller L γ) (throughput : Float) :
    (c.resolve throughput).1.pending = c.pending.drop c.due?.toList.length ∧
      (c.resolve throughput).1.episode = c.episode ∧
      (c.resolve throughput).1.warmup = c.warmup := by
  rw [resolve, due?]
  rcases hp : c.pending with - | ⟨d, - | ⟨next, rest⟩⟩
  · exact ⟨hp, rfl, rfl⟩
  · exact ⟨hp, rfl, rfl⟩
  · exact credit_queue { c with pending := next :: rest } d throughput

/-- The effects of resolving are rewards and the like, never a decision. -/
theorem resolveEffects_choice? (c : Controller L γ) (throughput : Float) :
    (c.resolveEffects throughput).findSome? Effect.choice? = none := by
  rw [resolveEffects]
  rcases c.pending with - | ⟨d, - | ⟨next, rest⟩⟩
  · rfl
  · rfl
  · dsimp only [creditEffects]
    rcases c.strategy.recordReward d.previous d.chosen throughput with ⟨strategy, e | ⟨⟩⟩
    · rfl
    · dsimp only [logRowEffects]
      cases strategy.previousFeatures d.previous d.chosen <;> rfl

theorem due?_eq_some {c : Controller L γ} {d : PendingDecision} (h : c.due? = some d) :
    ∃ next rest, c.pending = d :: next :: rest := by
  rw [due?] at h
  rcases hp : c.pending with - | ⟨d', - | ⟨next, rest⟩⟩ <;> rw [hp] at h <;> cases h
  exact ⟨next, rest, rfl⟩

theorem due?_eq_none {c : Controller L γ} (h : c.due? = none) : c.pending.length ≤ 1 := by
  rw [due?] at h
  rcases hp : c.pending with - | ⟨d', - | ⟨next, rest⟩⟩ <;> rw [hp] at h
  · exact Nat.zero_le 1
  · exact Nat.le_refl 1
  · cases h

end Controller

namespace Handling

open Controller

variable [Dice γ]

/-- How the handling of a report can end: with an error; by keeping the protocol in the warm-up; or
by a decision after it. Only the last two count as an episode, and only the last makes a decision. -/
inductive Ending (h : Handling L γ) : Prop where
  | failed (hreply : ∃ e, h.reply = .error e) (hissue : h.issue? = none)
      (hepisode : h.next.episode = h.before.episode)
  | kept (hwarm : h.before.inWarmup = true) (hreply : h.reply = .ok .keep) (hissue : h.issue? = none)
      (hepisode : h.next.episode = h.before.episode + 1)
  | switched (hwarm : h.before.inWarmup = false) (choice : Choice)
      (hreply : h.reply = .ok (.switch choice.protocol))
      (hissue : h.issue? = some ⟨h.before.episode, h.report, choice⟩)
      (hepisode : h.next.episode = h.before.episode + 1)

/-- What a report does to a run: it leaves the queue without the decision that was due and with the
one it made, the warm-up as it was, and ends in one of three ways. -/
structure Progress (h : Handling L γ) : Prop where
  ending : h.Ending
  queue : h.next.pending =
    h.before.pending.drop h.departure?.toList.length ++ (h.issue?.map Issue.decision).toList
  warmup : h.next.warmup = h.before.warmup

/-- Whatever is done before the choice, the choice is the one decision of the call. -/
theorem issue?_of_effects {h : Handling L γ} {more : List Effect}
    (heffects : h.effects = h.before.resolveEffects h.report.reward ++ more) :
    h.issue? = (more.findSome? Effect.choice?).map fun choice =>
      ⟨h.before.episode, h.report, choice⟩ := by
  rw [issue?, heffects, List.findSome?_append, resolveEffects_choice?, Option.none_or]

omit [Dice γ] in
theorem length_departure? (h : Handling L γ) :
    h.departure?.toList.length = h.before.due?.toList.length := by
  rw [departure?]
  cases h.before.due? <;> rfl

/-- A report whose credit fails is not answered. -/
theorem progress_of_unresolved {h : Handling L γ} {c : Controller L γ} {e : EpisodeError}
    (hresolve : h.before.resolve h.report.reward = (c, .error e)) : h.Progress := by
  obtain ⟨hqueue, hepisode, hwarmup⟩ := resolve_queue h.before h.report.reward
  have hhandled : h.handled = ⟨c, Work.none, .error e⟩ := by
    rw [handled, handleReport, hresolve]
  have heffects : h.effects = h.before.resolveEffects h.report.reward ++ [] := by
    rw [effects, Controller.effects, hresolve, List.append_nil]
  have hissue : h.issue? = none := issue?_of_effects heffects
  rw [hresolve] at hqueue hepisode hwarmup
  constructor
  · exact .failed ⟨e, by rw [reply, hhandled]⟩ hissue (by rw [next, hhandled]; exact hepisode)
  · rw [hissue, length_departure?, next, hhandled]
    exact hqueue.trans (List.append_nil _).symm
  · rw [next, hhandled]
    exact hwarmup

/-- A report whose credit succeeds is answered by what the credit left. -/
theorem progress_of_resolved {h : Handling L γ} {c : Controller L γ}
    (hresolve : h.before.resolve h.report.reward = (c, .ok ())) : h.Progress := by
  obtain ⟨hqueue, hepisode, hwarmup⟩ := resolve_queue h.before h.report.reward
  have hhandled : h.handled = c.answer h.report h.measured := by
    rw [handled, handleReport, hresolve]
  have heffects : h.effects =
      h.before.resolveEffects h.report.reward ++ c.answerEffects h.report h.measured := by
    rw [effects, Controller.effects, hresolve]
  have hissue := issue?_of_effects heffects
  rw [hresolve] at hqueue hepisode hwarmup
  -- a credit moves neither the counter nor the warm-up
  have hwarm : h.before.inWarmup = c.inWarmup := by
    rw [inWarmup, inWarmup, ← hepisode, ← hwarmup]
  cases hw : c.inWarmup with
  | true =>
    rw [answerEffects, if_pos hw] at hissue
    rw [answer, if_pos hw] at hhandled
    constructor
    · exact .kept (hwarm.trans hw) (by rw [reply, hhandled]) hissue
        (by rw [next, hhandled, ← hepisode])
    · rw [hissue, length_departure?, next, hhandled]
      exact hqueue.trans (List.append_nil _).symm
    · rw [next, hhandled]
      exact hwarmup
  | false =>
    have hnot : ¬ c.inWarmup = true := by rw [hw]; exact Bool.false_ne_true
    rw [answerEffects, if_neg hnot, chooseEffects] at hissue
    rw [answer, if_neg hnot, choose] at hhandled
    dsimp only at hhandled
    cases hd : (c.strategy.decide h.report.state h.report.current h.measured).outcome with
    | error e =>
      rw [hd] at hissue hhandled
      constructor
      · exact .failed ⟨.decision e, by rw [reply, hhandled]⟩ hissue
          (by rw [next, hhandled]; exact hepisode)
      · rw [hissue, length_departure?, next, hhandled]
        exact hqueue.trans (List.append_nil _).symm
      · rw [next, hhandled]
        exact hwarmup
    | ok choice =>
      rw [hd] at hissue hhandled
      constructor
      · exact .switched (hwarm.trans hw) choice (by rw [reply, hhandled]) hissue
          (by rw [next, hhandled, ← hepisode])
      · rw [hissue, length_departure?, next, hhandled]
        exact congrArg (· ++ _) hqueue
      · rw [next, hhandled]
        exact hwarmup

theorem progress (h : Handling L γ) : h.Progress := by
  rcases hresolve : h.before.resolve h.report.reward with ⟨c, e | ⟨⟩⟩
  · exact progress_of_unresolved hresolve
  · exact progress_of_resolved hresolve

/-- What is listed of a call is what the call did. -/
structure Traced (h : Handling L γ) : Prop where
  /-- The effects, performed in order with the answers they list, lead from the strategy and the log
  that the report met to those that it left. -/
  performed : Effect.Performed h.before.world h.effects h.next.world
  /-- The report was answered by a switch exactly if a decision is listed, and then by the protocol
  that it chose. -/
  answered : ∀ p, h.reply = .ok (.switch p) ↔ ∃ i, h.issue? = some i ∧ i.choice.protocol = p

theorem traced (h : Handling L γ) : h.Traced := by
  constructor
  · exact Controller.handleReport_performed h.before h.report h.measured
  · intro p
    rcases h.progress.ending with ⟨⟨e, hreply⟩, hissue, -⟩ | ⟨-, hreply, hissue, -⟩ |
      ⟨-, choice, hreply, hissue, -⟩ <;> rw [hreply, hissue] <;> simp

end Handling

/-! ## Whole runs -/

/-- The first episode that is answered by a decision. -/
def firstDecision (warmup : Nat) : Nat :=
  max warmup 1 - 1

theorem inWarmup_iff (c : Controller L γ) :
    c.inWarmup = true ↔ c.episode < firstDecision c.warmup := by
  rw [Controller.inWarmup, decide_eq_true_iff, firstDecision]
  omega

open Handling

variable [Dice γ]

/-- How the queue, the episode counter and the decisions of a run are related: from the first
decision on there is one for every completed episode; each has left the queue, in order, or waits in
it; it left when the counter was two ahead; and at most two wait. -/
structure Ledger (e₀ : Nat) (c : Controller L γ) (calls : List (Handling L γ)) : Prop where
  issued : (issues calls).map Issue.episode = List.range' e₀ (c.episode - e₀)
  queued : (issues calls).map Issue.decision =
    (departures calls).map Departure.decision ++ c.pending
  departed : (departures calls).map Departure.episode =
    List.range' (e₀ + 2) (departures calls).length
  short : c.pending.length ≤ 2
  warmup : firstDecision c.warmup = e₀

namespace Ledger

variable {e₀ : Nat} {c : Controller L γ} {calls : List (Handling L γ)}

theorem length_issues (hl : Ledger e₀ c calls) : (issues calls).length = c.episode - e₀ := by
  have := congrArg List.length hl.issued
  rwa [List.length_map, List.length_range'] at this

theorem length_departures (hl : Ledger e₀ c calls) :
    (departures calls).length + c.pending.length = c.episode - e₀ := by
  have := congrArg List.length hl.queued
  rw [List.length_append, List.length_map, List.length_map] at this
  rw [← this, hl.length_issues]

/-- A decision leaves the queue when the counter is two ahead of the one that it was made in. -/
theorem episode_of_due {d : PendingDecision} (hl : Ledger e₀ c calls) (hdue : c.due? = some d) :
    c.pending.length = 2 ∧ c.episode = e₀ + 2 + (departures calls).length := by
  obtain ⟨next, rest, hpending⟩ := Controller.due?_eq_some hdue
  have hshort := hl.short
  have hcount := hl.length_departures
  rw [hpending, List.length_cons, List.length_cons] at hshort hcount
  rw [hpending, List.length_cons, List.length_cons]
  omega

theorem start (strategy : Strategy L γ) (log : TrainingLog) (warmup : Nat) :
    Ledger (firstDecision warmup) (Controller.start strategy log warmup) [] where
  issued := by
    rw [Controller.start, Nat.zero_sub]
    rfl
  queued := rfl
  departed := rfl
  short := Nat.zero_le 2
  warmup := rfl

/-- Nothing in the ledger is about the log. -/
theorem relog (hl : Ledger e₀ c calls) (log : TrainingLog) : Ledger e₀ { c with log := log } calls :=
  ⟨hl.issued, hl.queued, hl.departed, hl.short, hl.warmup⟩

variable {h : Handling L γ}

theorem issued_next (hl : Ledger e₀ h.before calls) :
    (issues (calls ++ [h])).map Issue.episode = List.range' e₀ (h.next.episode - e₀) := by
  have hwarm := inWarmup_iff h.before
  rw [hl.warmup] at hwarm
  rw [issues_concat, List.map_append, hl.issued]
  rcases h.progress.ending with ⟨-, hissue, hepisode⟩ | ⟨hw, -, hissue, hepisode⟩ |
    ⟨hw, choice, -, hissue, hepisode⟩ <;> rw [hissue, hepisode]
  · exact List.append_nil _
  · -- the first decision is still to come
    have := hwarm.mp hw
    rw [Nat.sub_eq_zero_of_le (Nat.le_of_lt this), Nat.sub_eq_zero_of_le this]
    rfl
  · have : e₀ ≤ h.before.episode := by
      refine Nat.le_of_not_lt fun hlt => ?_
      rw [hwarm.mpr hlt] at hw
      cases hw
    have hlast : e₀ + (h.before.episode - e₀) = h.before.episode := Nat.add_sub_cancel' this
    rw [Nat.succ_sub this, List.range'_1_concat, hlast]
    rfl

theorem queued_next (hl : Ledger e₀ h.before calls) :
    (issues (calls ++ [h])).map Issue.decision =
      (departures (calls ++ [h])).map Departure.decision ++ h.next.pending := by
  -- what leaves the queue is its head
  have hsplit : h.before.pending = h.departure?.toList.map Departure.decision ++
      h.before.pending.drop h.departure?.toList.length := by
    rw [departure?]
    cases hdue : h.before.due? with
    | none => rfl
    | some d =>
      obtain ⟨next, rest, hpending⟩ := Controller.due?_eq_some hdue
      rw [hpending]
      rfl
  have hmade : h.issue?.toList.map Issue.decision = (h.issue?.map Issue.decision).toList := by
    cases h.issue? <;> rfl
  calc (issues (calls ++ [h])).map Issue.decision
      = (departures calls).map Departure.decision ++ h.before.pending ++
          (h.issue?.map Issue.decision).toList := by
        rw [issues_concat, List.map_append, hl.queued, hmade]
    _ = (departures calls).map Departure.decision ++ h.departure?.toList.map Departure.decision ++
          (h.before.pending.drop h.departure?.toList.length ++
            (h.issue?.map Issue.decision).toList) := by
        rw [List.append_assoc _ (h.departure?.toList.map _), ← List.append_assoc _ _ (Option.toList _),
          ← hsplit, List.append_assoc]
    _ = (departures (calls ++ [h])).map Departure.decision ++ h.next.pending := by
        rw [departures_concat, List.map_append, h.progress.queue]

theorem departed_next (hl : Ledger e₀ h.before calls) :
    (departures (calls ++ [h])).map Departure.episode =
      List.range' (e₀ + 2) (departures (calls ++ [h])).length := by
  rw [departures_concat, List.map_append, hl.departed, departure?]
  cases hdue : h.before.due? with
  | none => rw [Option.map_none, Option.toList_none, List.map_nil, List.append_nil, List.append_nil]
  | some d =>
    -- the counter has come as far as the decisions that left before
    show _ ++ [h.before.episode] = List.range' _ (_ ++ [_]).length
    rw [List.length_append, List.length_singleton, List.range'_1_concat, (hl.episode_of_due hdue).2]

theorem short_next (hl : Ledger e₀ h.before calls) : h.next.pending.length ≤ 2 := by
  have hnew : (h.issue?.map Issue.decision).toList.length ≤ 1 := by
    cases h.issue? with
    | none => exact Nat.zero_le 1
    | some i => exact Nat.le_refl 1
  rw [h.progress.queue, List.length_append, List.length_drop, length_departure?]
  cases hdue : h.before.due? with
  | none =>
    have := Controller.due?_eq_none hdue
    omega
  | some d =>
    have := (hl.episode_of_due hdue).1
    rw [Option.toList_some, List.length_singleton]
    omega

/-- Every report keeps the ledger, whether it is answered or fails halfway. -/
theorem handling (hl : Ledger e₀ h.before calls) : Ledger e₀ h.next (calls ++ [h]) where
  issued := hl.issued_next
  queued := hl.queued_next
  departed := hl.departed_next
  short := hl.short_next
  warmup := by rw [h.progress.warmup]; exact hl.warmup

/-- Every run keeps the ledger. -/
theorem of_run (strategy : Strategy L γ) (log : TrainingLog) (warmup : Nat) (events : List Event) :
    Ledger (firstDecision warmup) ((Controller.start strategy log warmup).after events)
      ((Controller.start strategy log warmup).handlings events) :=
  Controller.after_induction (fun _ _ log hl => hl.relog log) (fun _ _ hl => hl.handling)
    (start strategy log warmup) events

/-- The decisions that left are the first ones made, each when the counter was two ahead. -/
theorem departed_eq (hl : Ledger e₀ c calls) :
    (departures calls).map (fun d => (d.episode, d.decision)) =
      ((issues calls).take (departures calls).length).map fun i => (i.episode + 2, i.decision) := by
  have hcount := hl.length_departures
  -- the two columns agree one by one
  have hepisodes : (departures calls).map Departure.episode =
      ((issues calls).take (departures calls).length).map fun i => i.episode + 2 := by
    have hissued := congrArg (List.take (departures calls).length) hl.issued
    rw [← List.map_take, List.take_range'_of_length_ge (by omega)] at hissued
    have hshift := congrArg (List.map (· + 2)) hissued
    rw [List.map_map] at hshift
    rw [hl.departed]
    refine Eq.trans ?_ hshift.symm
    rw [Nat.add_comm, ← List.map_add_range']
    exact List.map_congr_left fun e _ => Nat.add_comm 2 e
  have hdecisions : (departures calls).map Departure.decision =
      ((issues calls).take (departures calls).length).map Issue.decision := by
    rw [List.map_take, hl.queued, List.take_left' (List.length_map _)]
  calc (departures calls).map (fun d => (d.episode, d.decision))
      = ((departures calls).map Departure.episode).zip ((departures calls).map Departure.decision) :=
        (List.zip_map' ..).symm
    _ = _ := by rw [hepisodes, hdecisions, List.zip_map']

/-- The decisions that wait are the others. -/
theorem waiting_eq (hl : Ledger e₀ c calls) :
    c.pending = ((issues calls).drop (departures calls).length).map Issue.decision := by
  rw [List.map_drop, hl.queued, List.drop_left' (List.length_map _)]

/-- They were made in the last completed episodes. -/
theorem latest_eq (hl : Ledger e₀ c calls) :
    ((issues calls).drop (departures calls).length).map Issue.episode =
      List.range' (c.episode - c.pending.length) c.pending.length := by
  have hcount := hl.length_departures
  rw [List.map_drop, hl.issued, List.drop_range', Nat.mul_one]
  -- an empty queue says nothing of where the counter stands
  by_cases hnone : c.pending.length = 0
  · rw [hnone, show c.episode - e₀ - (departures calls).length = 0 by omega]
    rfl
  · rw [show e₀ + (departures calls).length = c.episode - c.pending.length by omega,
      show c.episode - e₀ - (departures calls).length = c.pending.length by omega]

end Ledger

end AdaptiveConsensus
