import AdaptiveConsensus.Forest.Basic
import AdaptiveConsensus.Proofs.Episode.Queue
import AdaptiveConsensus.Random.ChaCha

/-!
# When decisions are made and credited

`Schedule` says what a run does episode by episode if every report is answered: nothing in the
warm-up, then one decision per report, credited while the report two episodes later is handled and
before that report's own decision is made. `QueueLaws` adds what is left of this when calls fail.

- `queueLaws`: every run of every strategy obeys them.
-/

namespace AdaptiveConsensus

open AdaptiveConsensus.Random Handling

variable {L : Learner} {γ : Type} [Dice γ]

/-! ## The calls of one report -/

namespace Controller

omit [Dice γ] in
theorem logRowEffects_showsLog (c : Controller L γ) (d : PendingDecision) (throughput : Float) :
    ∀ x ∈ c.logRowEffects d throughput, x.showsLog = true := by
  rw [logRowEffects]
  cases c.strategy.previousFeatures d.previous d.chosen <;> simp [Effect.showsLog]

omit [Dice γ] in
/-- Resolving credits the decision that is due and nothing else, and credits it first. -/
theorem resolveEffects_eq (c : Controller L γ) (throughput : Float) :
    c.due? = none ∧ c.resolveEffects throughput = [] ∨
      ∃ d answer shown, c.due? = some d ∧ (∀ x ∈ shown, x.showsLog = true) ∧
        c.resolveEffects throughput = .reward d.previous d.chosen throughput answer :: shown ∧
        ((c.resolve throughput).2.isOk = true → answer = .ok ()) := by
  rw [resolveEffects, resolve, due?]
  rcases c.pending with - | ⟨d, - | ⟨next, rest⟩⟩
  · exact .inl ⟨rfl, rfl⟩
  · exact .inl ⟨rfl, rfl⟩
  · right
    dsimp only [creditEffects, credit]
    rcases c.strategy.recordReward d.previous d.chosen throughput with ⟨strategy, e | ⟨⟩⟩
    · refine ⟨d, .error e, [], rfl, ?_, rfl, ?_⟩
      · intro x hx
        cases hx
      · intro hok
        cases hok
    · exact ⟨d, .ok (), _, rfl, logRowEffects_showsLog _ d throughput, rfl, fun _ => rfl⟩

end Controller

namespace Handling

omit [Dice γ] in
theorem filterMap_rewarded?_of_showsLog {shown : List Effect}
    (hshown : ∀ x ∈ shown, x.showsLog = true) : shown.filterMap Effect.rewarded? = [] := by
  rw [List.filterMap_eq_nil_iff]
  intro x hx
  have := hshown x hx
  cases x <;> first | rfl | cases this

/-- The effects of a call are those of resolving followed by those of an answer, which credits
nothing. -/
theorem effects_eq (h : Handling L γ) :
    ∃ more, h.effects = h.before.resolveEffects h.report.reward ++ more ∧
      more.filterMap Effect.rewarded? = [] := by
  rw [effects, Controller.effects]
  rcases h.before.resolve h.report.reward with ⟨c, e | ⟨⟩⟩
  · exact ⟨[], (List.append_nil _).symm, rfl⟩
  · refine ⟨_, rfl, ?_⟩
    rw [Controller.answerEffects]
    split
    · rfl
    · rw [Controller.chooseEffects]
      split <;> rfl

/-- A call credits the decision that leaves the queue, with the throughput of the report, and no
other. -/
theorem rewarded?_effects (h : Handling L γ) :
    h.effects.filterMap Effect.rewarded? =
      h.departure?.toList.map fun d => (d.decision.previous, d.decision.chosen, d.report.reward) := by
  obtain ⟨more, heffects, hmore⟩ := h.effects_eq
  rw [heffects, List.filterMap_append, hmore, List.append_nil, departure?]
  rcases h.before.resolveEffects_eq h.report.reward with
    ⟨hdue, hres⟩ | ⟨d, answer, shown, hdue, hshown, hres, -⟩ <;> rw [hdue, hres]
  · rfl
  · show (d.previous, d.chosen, h.report.reward) :: shown.filterMap Effect.rewarded? = _
    rw [filterMap_rewarded?_of_showsLog hshown]
    rfl

/-- The decisions credited in a run are those that left the queue, in that order. -/
theorem rewards_eq (calls : List (Handling L γ)) :
    rewards calls = (departures calls).map fun d =>
      (d.decision.previous, d.decision.chosen, d.report.reward) := by
  induction calls with
  | nil => rfl
  | cons h rest ih =>
    rw [rewards, List.flatMap_cons, rewarded?_effects, departures, List.filterMap_cons]
    rw [rewards, departures] at ih
    cases h.departure? with
    | none => exact ih
    | some d => exact congrArg (List.cons _) ih

/-- An accepted report outside the warm-up: the decision that is due, if there is one, is credited,
then the log shows it, then the decision of the report is made and filed. -/
theorem effects_of_issue {h : Handling L γ} (haccepted : h.Accepted) {i : Issue}
    (hissue : h.issue? = some i) :
    ∃ shown : List Effect, (∀ x ∈ shown, x.showsLog = true) ∧
      h.effects =
        (match h.before.due? with
          | some d => .reward d.previous d.chosen h.report.reward (.ok ()) :: shown
          | none => []) ++
        [.decide h.report.state h.report.current h.measured (.ok i.choice),
          .file h.report.current i.choice.protocol h.report.state] := by
  rcases hresolve : h.before.resolve h.report.reward with ⟨c, e | ⟨⟩⟩
  · -- a failed credit is not accepted
    rw [Accepted, reply, handled, Controller.handleReport, hresolve] at haccepted
    cases haccepted
  have heffects : h.effects =
      h.before.resolveEffects h.report.reward ++ c.answerEffects h.report h.measured := by
    rw [effects, Controller.effects, hresolve]
  have hanswer : c.answerEffects h.report h.measured =
      [.decide h.report.state h.report.current h.measured (.ok i.choice),
        .file h.report.current i.choice.protocol h.report.state] := by
    rw [issue?_of_effects heffects, Controller.answerEffects] at hissue
    rw [Controller.answerEffects]
    by_cases hw : c.inWarmup
    · rw [if_pos hw] at hissue
      cases hissue
    · rw [if_neg hw] at hissue ⊢
      rw [Controller.chooseEffects] at hissue ⊢
      cases hd : (c.strategy.decide h.report.state h.report.current h.measured).outcome with
      | error e => rw [hd] at hissue; cases hissue
      | ok choice => rw [hd] at hissue; cases hissue; rfl
  rw [heffects, hanswer]
  rcases h.before.resolveEffects_eq h.report.reward with
    ⟨hdue, hres⟩ | ⟨d, answer, shown, hdue, hshown, hres, hok⟩
  · exact ⟨[], fun x hx => (List.not_mem_nil hx).elim, by rw [hdue, hres]⟩
  · rw [hresolve] at hok
    exact ⟨shown, hshown, by rw [hdue, hres, hok rfl]⟩

end Handling

/-! ## Runs in which every report is answered -/

/-- The decision of an episode as it waits for its throughput. -/
def decisionAt (report : Nat → StateReport) (choice : Nat → Choice) (e : Nat) : PendingDecision :=
  ⟨(report e).current, (choice e).protocol, (choice e).cost⟩

/-- What a run whose first decision comes in episode `e₀` does in each episode, on the reports
`report` and with the choices `choice`. -/
structure Schedule (e₀ : Nat) (report : Nat → StateReport) (choice : Nat → Choice)
    (c : Controller L γ) (calls : List (Handling L γ)) : Prop where
  /-- One report is handled in each episode. -/
  reports : ∀ e h, calls[e]? = some h → h.before.episode = e ∧ h.report = report e
  /-- In the warm-up the strategy and the log are not called, and no decision waits. -/
  warmup : ∀ e h, calls[e]? = some h → e < e₀ →
    h.reply = .ok .keep ∧ h.effects = [] ∧ h.next.pending = []
  /-- Afterwards each report is answered by a decision. Before it is made, the decision of two
  episodes earlier is credited with the throughput of this report, and the log shows it. -/
  decisions : ∀ e h, calls[e]? = some h → e₀ ≤ e →
    h.reply = .ok (.switch (choice e).protocol) ∧
      ∃ shown : List Effect, (∀ x ∈ shown, x.showsLog = true) ∧
        h.effects =
          (if e₀ + 2 ≤ e then
            .reward (report (e - 2)).current (choice (e - 2)).protocol (report e).reward (.ok ()) ::
              shown
          else []) ++
          [.decide (report e).state (report e).current h.measured (.ok (choice e)),
            .file (report e).current (choice e).protocol (report e).state]
  /-- Over the run, the decisions of all but the last two episodes are credited, once each and in
  order. -/
  rewards : rewards calls = (List.range' e₀ (calls.length - 2 - e₀)).map fun e =>
    ((report e).current, (choice e).protocol, (report (e + 2)).reward)
  /-- The decisions of the last two episodes wait. -/
  queue : c.pending =
    (List.range' (calls.length - min 2 (calls.length - e₀)) (min 2 (calls.length - e₀))).map
      (decisionAt report choice)

namespace Ledger

variable {e₀ : Nat} {c : Controller L γ} {calls : List (Handling L γ)}

/-- In a run whose reports are all answered, each is an episode, and the queue is filled up to two. -/
structure Full (e₀ : Nat) (c : Controller L γ) (calls : List (Handling L γ)) : Prop where
  episode : c.episode = calls.length
  filled : c.pending.length = min 2 (c.episode - e₀)

theorem Full.handling {h : Handling L γ} (hl : Ledger e₀ h.before calls) (hf : Full e₀ h.before calls)
    (haccepted : h.Accepted) : Full e₀ h.next (calls ++ [h]) := by
  have hwarm := inWarmup_iff h.before
  rw [hl.warmup] at hwarm
  have hcount : h.next.pending.length =
      h.before.pending.length - h.before.due?.toList.length + h.issue?.toList.length := by
    rw [h.progress.queue, List.length_append, List.length_drop, length_departure?]
    cases h.issue? <;> rfl
  -- one decision leaves a queue of two, and none leaves a shorter one
  have hdue : h.before.due?.toList.length = h.before.pending.length - 1 := by
    have hshort := hl.short
    cases hd : h.before.due? with
    | none =>
      have := Controller.due?_eq_none hd
      rw [Option.toList_none, List.length_nil]
      omega
    | some d =>
      have := (hl.episode_of_due hd).1
      rw [Option.toList_some, List.length_singleton]
      omega
  have hfilled := hf.filled
  have hepisode := hf.episode
  constructor <;> rcases h.progress.ending with ⟨⟨e, hreply⟩, -, -⟩ | ⟨hw, -, hissue, hnext⟩ |
    ⟨hw, choice, -, hissue, hnext⟩
  · rw [Accepted, hreply] at haccepted
    cases haccepted
  · rw [hnext, hepisode, List.length_append, List.length_singleton]
  · rw [hnext, hepisode, List.length_append, List.length_singleton]
  · rw [Accepted, hreply] at haccepted
    cases haccepted
  · have := hwarm.mp hw
    rw [hcount, hdue, hissue, hnext, Option.toList_none, List.length_nil]
    omega
  · have : ¬ h.before.episode < e₀ := by
      rw [← hwarm, hw]
      exact Bool.false_ne_true
    rw [hcount, hdue, hissue, hnext, Option.toList_some, List.length_singleton]
    omega

theorem full_of_run (strategy : Strategy L γ) (log : TrainingLog) (warmup : Nat)
    (events : List Event)
    (haccepted : ∀ h ∈ (Controller.start strategy log warmup).handlings events, h.Accepted) :
    Full (firstDecision warmup) ((Controller.start strategy log warmup).after events)
      ((Controller.start strategy log warmup).handlings events) := by
  refine (Controller.after_induction
    (P := fun c calls => Ledger (firstDecision warmup) c calls ∧
      ((∀ h ∈ calls, h.Accepted) → Full (firstDecision warmup) c calls))
    ?_ ?_ ?_ events).2 haccepted
  · rintro c calls log ⟨hl, hf⟩
    exact ⟨hl.relog log, fun hall => ⟨(hf hall).episode, (hf hall).filled⟩⟩
  · rintro calls h ⟨hl, hf⟩
    refine ⟨hl.handling, fun hall => ?_⟩
    exact Full.handling hl (hf fun g hg => hall g (List.mem_append_left _ hg))
      (hall h (List.mem_append_right _ (List.mem_singleton_self h)))
  · refine ⟨Ledger.start strategy log warmup, fun _ => ⟨rfl, ?_⟩⟩
    rw [Controller.start, Nat.zero_sub]
    rfl

end Ledger

/-! ## Decisions by episode -/

/-- The reports and choices of a run by episode. -/
structure Reads (report : Nat → StateReport) (choice : Nat → Choice)
    (calls : List (Handling L γ)) : Prop where
  reports : ∀ e h, calls[e]? = some h → h.report = report e
  issues : ∀ i ∈ issues calls, i = ⟨i.episode, report i.episode, choice i.episode⟩

theorem mem_issues {calls : List (Handling L γ)} {i : Issue} (hi : i ∈ issues calls) :
    ∃ (e : Nat) (h : Handling L γ), calls[e]? = some h ∧ h.issue? = some i := by
  obtain ⟨h, hmem, hissue⟩ := List.mem_filterMap.mp hi
  obtain ⟨e, hlt, he⟩ := List.getElem_of_mem hmem
  exact ⟨e, h, by rw [List.getElem?_eq_getElem hlt, he], hissue⟩

theorem episode_of_issue? {h : Handling L γ} {i : Issue} (hi : h.issue? = some i) :
    i.episode = h.before.episode ∧ i.report = h.report := by
  rw [issue?] at hi
  cases hc : h.effects.findSome? Effect.choice? <;> rw [hc] at hi <;> cases hi
  exact ⟨rfl, rfl⟩

/-- If the counter of each handling is its place in the run, reports and choices are functions of the
episode. -/
theorem exists_reads {calls : List (Handling L γ)}
    (hepisode : ∀ (e : Nat) (h : Handling L γ), calls[e]? = some h → h.before.episode = e) :
    ∃ report choice, Reads report choice calls := by
  -- past the end of the run any report and any choice will do
  let idle : StateReport := ⟨⟨0, 0, 0, 0, 0, 0⟩, .pbft, 0⟩
  refine ⟨fun e => (calls[e]?.map Handling.report).getD idle,
    fun e => ((calls[e]?.bind issue?).map Issue.choice).getD ⟨.pbft, Cost.free⟩, ?_, ?_⟩
  · intro e h he
    rw [he]
    rfl
  · intro i hi
    obtain ⟨e, h, he, hissue⟩ := mem_issues hi
    obtain ⟨hie, hir⟩ := episode_of_issue? hissue
    have hplace : calls[i.episode]? = some h := by rw [hie, hepisode e h he, he]
    rw [hplace, Option.bind_some, hissue]
    show i = ⟨i.episode, h.report, i.choice⟩
    rw [← hir]

namespace Ledger

variable {e₀ : Nat} {c : Controller L γ} {calls : List (Handling L γ)}
  {report : Nat → StateReport} {choice : Nat → Choice}

/-- The decisions that wait are those of the last episodes. -/
theorem pending_eq (hl : Ledger e₀ c calls)
    (hreads : ∀ i ∈ issues calls, i = ⟨i.episode, report i.episode, choice i.episode⟩) :
    c.pending = (List.range' (c.episode - c.pending.length) c.pending.length).map
      (decisionAt report choice) := by
  rw [← hl.latest_eq, List.map_map]
  refine hl.waiting_eq.trans (List.map_congr_left fun i hi => ?_)
  show i.decision = decisionAt report choice i.episode
  rw [hreads i (List.mem_of_mem_drop hi)]
  rfl

/-- The decisions that left are those of the episodes from `e₀` on. -/
theorem departures_eq (hl : Ledger e₀ c calls) (hreads : Reads report choice calls)
    (hepisode : ∀ (e : Nat) (h : Handling L γ), calls[e]? = some h → h.before.episode = e) :
    departures calls = (List.range' e₀ (departures calls).length).map fun e =>
      ⟨e + 2, decisionAt report choice e, report (e + 2)⟩ := by
  -- the departures are told by three columns: when, which decision, at which report
  have hissued : ((issues calls).take (departures calls).length).map Issue.episode =
      List.range' e₀ (departures calls).length := by
    have hcount := hl.length_departures
    rw [List.map_take, hl.issued, List.take_range'_of_length_ge (by omega)]
  have hdeparted : (departures calls).map (fun d => (d.episode, d.decision)) =
      (List.range' e₀ (departures calls).length).map fun e =>
        (e + 2, decisionAt report choice e) := by
    rw [hl.departed_eq, ← hissued, List.map_map]
    refine List.map_congr_left fun i hi => ?_
    show (i.episode + 2, i.decision) = (i.episode + 2, decisionAt report choice i.episode)
    rw [hreads.issues i (List.mem_of_mem_take hi)]
    rfl
  have hreports : ∀ d ∈ departures calls, d = ⟨d.episode, d.decision, report d.episode⟩ := by
    intro d hd
    obtain ⟨h, hmem, hdep⟩ := List.mem_filterMap.mp hd
    obtain ⟨e, hlt, he⟩ := List.getElem_of_mem hmem
    have hplace : calls[e]? = some h := by rw [List.getElem?_eq_getElem hlt, he]
    rw [departure?] at hdep
    cases hdue : h.before.due? <;> rw [hdue] at hdep <;> cases hdep
    rw [hepisode e h hplace, ← hreads.reports e h hplace]
  calc departures calls
      = (departures calls).map fun d => ⟨d.episode, d.decision, report d.episode⟩ := by
        rw [← List.map_congr_left hreports, List.map_id']
    _ = ((departures calls).map fun d => (d.episode, d.decision)).map fun p =>
          ⟨p.1, p.2, report p.1⟩ := by rw [List.map_map]; rfl
    _ = _ := by rw [hdeparted, List.map_map]; rfl

end Ledger

/-- A report in the warm-up is passed over. -/
theorem idle_of_inWarmup {h : Handling L γ} (hwarm : h.before.inWarmup = true)
    (hpending : h.before.pending = []) :
    h.reply = .ok .keep ∧ h.effects = [] ∧ h.next.pending = [] := by
  have hresolve : h.before.resolve h.report.reward = (h.before, .ok ()) := by
    rw [Controller.resolve, hpending]
  have hhandled : h.handled =
      ⟨{ h.before with episode := h.before.episode + 1 }, Work.none, .ok .keep⟩ := by
    rw [handled, Controller.handleReport, hresolve]
    show h.before.answer h.report h.measured = _
    rw [Controller.answer, if_pos hwarm]
  refine ⟨by rw [reply, hhandled], ?_, by rw [next, hhandled]; exact hpending⟩
  rw [effects, Controller.effects, hresolve, Controller.resolveEffects, hpending]
  show h.before.answerEffects h.report h.measured = []
  rw [Controller.answerEffects, if_pos hwarm]

/-- The decision that is due is that of two episodes earlier. -/
theorem Ledger.due?_eq {e₀ : Nat} {c : Controller L γ} {calls : List (Handling L γ)}
    {report : Nat → StateReport} {choice : Nat → Choice} (hl : Ledger e₀ c calls)
    (hreads : ∀ i ∈ issues calls, i = ⟨i.episode, report i.episode, choice i.episode⟩)
    (hfilled : c.pending.length = min 2 (c.episode - e₀)) :
    c.due? = if e₀ + 2 ≤ c.episode then some (decisionAt report choice (c.episode - 2)) else none := by
  by_cases htwo : e₀ + 2 ≤ c.episode
  · have hpending := hl.pending_eq hreads
    rw [hfilled, Nat.min_eq_left (by omega)] at hpending
    rw [if_pos htwo, Controller.due?, hpending]
    rfl
  · rw [if_neg htwo]
    cases hdue : c.due? with
    | none => rfl
    | some d =>
      have := (hl.episode_of_due hdue).1
      omega

/-! ## The laws of the queue -/

section

variable {strategy : Strategy L γ} {log : TrainingLog} {warmup : Nat} {events : List Event}

/-- In a run whose reports are all answered, every report met the counter that is its place, with the
ledger of the reports before it. -/
theorem ledger_before
    (haccepted : ∀ h ∈ (Controller.start strategy log warmup).handlings events, h.Accepted)
    {e : Nat} {h : Handling L γ}
    (he : ((Controller.start strategy log warmup).handlings events)[e]? = some h) :
    Ledger (firstDecision warmup) h.before
        (((Controller.start strategy log warmup).handlings events).take e) ∧
      h.before.episode = e ∧ h.before.pending.length = min 2 (e - firstDecision warmup) := by
  obtain ⟨before, after, -, hbefore, htake⟩ := Controller.handlings_getElem? he
  have hl := Ledger.of_run strategy log warmup before
  have hf := Ledger.full_of_run strategy log warmup before fun g hg =>
    haccepted g (List.mem_of_mem_take (htake ▸ hg))
  rw [hbefore, htake] at hl hf
  obtain ⟨hlt, -⟩ := List.getElem?_eq_some_iff.mp he
  have hepisode : h.before.episode = e := by
    rw [hf.episode, List.length_take]
    omega
  exact ⟨hl, hepisode, by rw [hf.filled, hepisode]⟩

theorem schedule_of_accepted
    (haccepted : ∀ h ∈ (Controller.start strategy log warmup).handlings events, h.Accepted) :
    ∃ report choice, Schedule (firstDecision warmup) report choice
      ((Controller.start strategy log warmup).after events)
      ((Controller.start strategy log warmup).handlings events) := by
  have hl := Ledger.of_run strategy log warmup events
  have hf := Ledger.full_of_run strategy log warmup events haccepted
  have hbefore := fun e h => ledger_before haccepted (e := e) (h := h)
  -- from here on nothing is used but the ledgers of the run and of its prefixes
  revert hl hf hbefore haccepted
  generalize (Controller.start strategy log warmup).after events = c
  generalize (Controller.start strategy log warmup).handlings events = calls
  generalize firstDecision warmup = e₀
  intro haccepted hl hf hbefore
  have hepisode : ∀ (e : Nat) (h : Handling L γ), calls[e]? = some h → h.before.episode = e :=
    fun e h he => (hbefore e h he).2.1
  obtain ⟨report, choice, hreads⟩ := exists_reads hepisode
  refine ⟨report, choice, ⟨?_, ?_, ?_, ?_, ?_⟩⟩
  · exact fun e h he => ⟨hepisode e h he, hreads.reports e h he⟩
  · intro e h he hlt
    obtain ⟨hledger, he', hfilled⟩ := hbefore e h he
    refine idle_of_inWarmup ((inWarmup_iff _).mpr (by rwa [hledger.warmup, he'])) ?_
    rw [← List.length_eq_zero_iff, hfilled]
    omega
  · intro e h he hle
    obtain ⟨hledger, he', hfilled⟩ := hbefore e h he
    have hreport := hreads.reports e h he
    rcases h.progress.ending with ⟨⟨err, hreply⟩, -, -⟩ | ⟨hw, -, -, -⟩ | ⟨-, made, hreply, hissue, -⟩
    · have := haccepted h (List.mem_of_getElem? he)
      rw [Accepted, hreply] at this
      cases this
    · -- the warm-up is over
      have := (inWarmup_iff _).mp hw
      rw [hledger.warmup, he'] at this
      omega
    · -- the choice is the one that the run's issues tell for this episode
      have hmade : made = choice e := by
        have hmem := List.mem_filterMap.mpr ⟨h, List.mem_of_getElem? he, hissue⟩
        have := congrArg Issue.choice (hreads.issues _ hmem)
        rwa [he'] at this
      rw [hmade] at hissue hreply
      obtain ⟨shown, hshown, heffects⟩ :=
        effects_of_issue (haccepted h (List.mem_of_getElem? he)) hissue
      refine ⟨hreply, shown, hshown, ?_⟩
      have hdue := hledger.due?_eq
        (fun i hi => hreads.issues i ((List.take_sublist e calls).filterMap _ |>.mem hi))
        (by rw [hfilled, he'])
      rw [heffects, hdue, he', hreport]
      by_cases htwo : e₀ + 2 ≤ e
      · rw [if_pos htwo, if_pos htwo]
        rfl
      · rw [if_neg htwo, if_neg htwo]
  · rw [rewards_eq, hl.departures_eq hreads hepisode, List.map_map]
    have hcount := hl.length_departures
    rw [hf.filled, hf.episode] at hcount
    rw [show (departures calls).length = calls.length - 2 - e₀ by omega]
    rfl
  · rw [hl.pending_eq hreads.issues, hf.filled, hf.episode]

end

/-- How a run's queue behaves, whatever fails in it: log, learner or messages. -/
structure QueueLaws (e₀ : Nat) (c : Controller L γ) (calls : List (Handling L γ)) : Prop where
  /-- At most two decisions wait. -/
  short : c.pending.length ≤ 2
  /-- Every episode completed from `e₀` on made one decision. -/
  issued : (issues calls).map Issue.episode = List.range' e₀ (c.episode - e₀)
  /-- Each report takes at most one decision off the front of the queue, and puts at most one, its
  own, at the end. -/
  steps : ∀ h ∈ calls, h.next.pending =
    h.before.pending.drop h.departure?.toList.length ++ (h.issue?.map Issue.decision).toList
  /-- The decisions that left are the first ones made, in order, and each left when the counter was
  two ahead. -/
  departed : (departures calls).map (fun d => (d.episode, d.decision)) =
    ((issues calls).take (departures calls).length).map fun i => (i.episode + 2, i.decision)
  /-- The decisions that wait are the others, in order. -/
  waiting : c.pending = ((issues calls).drop (departures calls).length).map Issue.decision
  /-- They are those of the last completed episodes. -/
  latest : ((issues calls).drop (departures calls).length).map Issue.episode =
    List.range' (c.episode - c.pending.length) c.pending.length
  /-- The decisions credited are those that left, each with the throughput of the report at which it
  left. -/
  credited : Handling.rewards calls = (departures calls).map fun d =>
    (d.decision.previous, d.decision.chosen, d.report.reward)
  /-- The decisions, credits and effects of these laws are those of the calls. -/
  traced : ∀ h ∈ calls, h.Traced
  /-- If every report is answered, the run goes by the schedule. -/
  schedule : (∀ h ∈ calls, h.Accepted) → ∃ report choice, Schedule e₀ report choice c calls

theorem QueueLaws.of_ledger {e₀ : Nat} {c : Controller L γ} {calls : List (Handling L γ)}
    (hl : Ledger e₀ c calls)
    (hschedule : (∀ h ∈ calls, h.Accepted) → ∃ report choice, Schedule e₀ report choice c calls) :
    QueueLaws e₀ c calls where
  short := hl.short
  issued := hl.issued
  steps := fun h _ => h.progress.queue
  departed := hl.departed_eq
  waiting := hl.waiting_eq
  latest := hl.latest_eq
  credited := rewards_eq calls
  traced := fun h _ => h.traced
  schedule := hschedule

/-- Every run of every strategy obeys the laws of the queue. -/
theorem queueLaws (strategy : Strategy L γ) (log : TrainingLog) (warmup : Nat)
    (events : List Event) :
    QueueLaws (firstDecision warmup) ((Controller.start strategy log warmup).after events)
      ((Controller.start strategy log warmup).handlings events) :=
  .of_ledger (Ledger.of_run strategy log warmup events) schedule_of_accepted

/-- The controller of the strategy with one model per protocol, with a warm-up of two episodes. -/
def scheduleStart : Controller (Forest.learner ⟨1, 1⟩) ChaCha :=
  Controller.start (Strategy.build .perAction ⟨.unlimited, false⟩ [] (ChaCha.ofSeed 0)).strategy
    ⟨BufferedDevice.ofDevice Device.reliable, 0, none⟩ 2

/-- Five reports, with a message that is none and a flush in between. -/
def scheduleEvents : List Event :=
  [.report ⟨⟨1, 30, 256, 6, 0, 1⟩, .prime, 900⟩ Cost.free,
    .report ⟨⟨1, 10, 256, 6, 1, 0⟩, .prime, 1200⟩ Cost.free,
    .malformed (.missing 5),
    .report ⟨⟨0, 10, 256, 6, 1, 0⟩, .zyzzyva, 700⟩ Cost.free,
    .flush,
    .report ⟨⟨0, 40, 256, 6, 1, 0⟩, .zyzzyva, 800⟩ Cost.free,
    .report ⟨⟨0.5, 20, 512, 6, 0, 0⟩, .sbft, 1500⟩ Cost.free]

/-- The decisions of the second and third episode are credited with the throughputs of the fourth and
fifth report, and those of the last two wait. -/
theorem schedule_of_scheduleEvents :
    (∃ report choice, Schedule 1 report choice (scheduleStart.after scheduleEvents)
      (scheduleStart.handlings scheduleEvents)) ∧
    Handling.rewards (scheduleStart.handlings scheduleEvents) =
      [(.prime, .hotStuff, 800), (.zyzzyva, .sbft, 1500)] ∧
    (scheduleStart.after scheduleEvents).pending =
      [⟨.zyzzyva, .zyzzyva, Cost.free⟩, ⟨.sbft, .pbft, Cost.free⟩] := by
  have hlaws : QueueLaws 1 (scheduleStart.after scheduleEvents)
      (scheduleStart.handlings scheduleEvents) := queueLaws _ _ 2 scheduleEvents
  obtain ⟨haccepted, hvalues⟩ :
      (∀ h ∈ scheduleStart.handlings scheduleEvents, h.Accepted) ∧
        Handling.rewards (scheduleStart.handlings scheduleEvents) =
          [(.prime, .hotStuff, 800), (.zyzzyva, .sbft, 1500)] ∧
        (scheduleStart.after scheduleEvents).pending =
          [⟨.zyzzyva, .zyzzyva, Cost.free⟩, ⟨.sbft, .pbft, Cost.free⟩] := by
    decide +kernel
  exact ⟨hlaws.schedule haccepted, hvalues⟩

end AdaptiveConsensus
