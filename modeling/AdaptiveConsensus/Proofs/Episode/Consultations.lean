import AdaptiveConsensus.Proofs.Episode.Books

/-!
# When the strategy is asked

A report is first resolved, then answered. `Handling.asking?` is the controller in between: it is the
one that asks the strategy for a decision, if it comes to that. `Handling.Course` lists the four ways
in which handling a report can go.

- `Handling.course`: there are no others.
- `Books.midway`: the books are right in between, too.
- `Carried.of_run`: a property that each call of the strategy keeps holds in every reachable state.
- `Carried.asked`: it holds whenever the strategy is asked, and then at most one decision waits.
-/

namespace AdaptiveConsensus

open AdaptiveConsensus.Random

variable {L : Learner} {γ : Type} [Dice γ]

namespace Controller

/-- The answer of the strategy, asked by a controller that has resolved what is due. -/
def ask (c : Controller L γ) (r : StateReport) (measured : Cost) : Decided (Strategy L γ) :=
  c.strategy.decide r.state r.current measured

/-- What every run keeps was true whenever a report came in, of the reports before it. -/
theorem before_of_run {P : Controller L γ → List (Handling L γ) → Prop} {c : Controller L γ}
    (hrun : ∀ events, P (c.after events) (c.handlings events)) {events : List Event} {n : Nat}
    {h : Handling L γ} (hn : (c.handlings events)[n]? = some h) :
    P h.before ((c.handlings events).take n) := by
  obtain ⟨before, after, -, hbefore, htake⟩ := handlings_getElem? hn
  rw [← hbefore, ← htake]
  exact hrun before

end Controller

namespace Handling

open Controller

omit [Dice γ] in
/-- The controller that asks for a decision on the report: the one that resolving left, unless it
failed or the warm-up lasts. -/
def asking? (h : Handling L γ) : Option (Controller L γ) :=
  match h.before.resolve h.report.reward with
  | (_, .error _) => none
  | (c, .ok ()) => if c.inWarmup then none else some c

/-- How handling a report can go: what is due cannot be resolved; the warm-up lasts; the strategy is
asked and fails; or it decides. -/
inductive Course (h : Handling L γ) : Prop where
  | unresolved (e : EpisodeError)
      (hresolve : (h.before.resolve h.report.reward).2 = .error e)
      (heffects : h.effects = h.before.resolveEffects h.report.reward)
      (hasking : h.asking? = none)
      (hhandled : h.handled = ⟨(h.before.resolve h.report.reward).1, Work.none, .error e⟩)
      (hissue : h.issue? = none)
  | idle (heffects : h.effects = h.before.resolveEffects h.report.reward)
      (hasking : h.asking? = none)
      (hhandled : h.handled =
        ⟨{ (h.before.resolve h.report.reward).1 with
            episode := (h.before.resolve h.report.reward).1.episode + 1 }, Work.none, .ok .keep⟩)
      (hissue : h.issue? = none)
  | failed (c : Controller L γ) (e : BucketError)
      (hresolve : h.before.resolve h.report.reward = (c, .ok ()))
      (heffects : h.effects = h.before.resolveEffects h.report.reward ++
        [.decide h.report.state h.report.current h.measured (.error e)])
      (hasking : h.asking? = some c)
      (hanswer : (c.ask h.report h.measured).outcome = .error e)
      (hhandled : h.handled = ⟨{ c with strategy := (c.ask h.report h.measured).state },
        (c.ask h.report h.measured).work, .error (.decision e)⟩)
      (hissue : h.issue? = none)
  | decided (c : Controller L γ) (choice : Choice)
      (hresolve : h.before.resolve h.report.reward = (c, .ok ()))
      (heffects : h.effects = h.before.resolveEffects h.report.reward ++
        [.decide h.report.state h.report.current h.measured (.ok choice),
          .file h.report.current choice.protocol h.report.state])
      (hasking : h.asking? = some c)
      (hanswer : (c.ask h.report h.measured).outcome = .ok choice)
      (hhandled : h.handled =
        ⟨{ c with
            strategy := (c.ask h.report h.measured).state.recordDecision h.report.current
              choice.protocol h.report.state
            pending := c.pending ++ [⟨h.report.current, choice.protocol, choice.cost⟩]
            episode := c.episode + 1 },
          (c.ask h.report h.measured).work, .ok (.switch choice.protocol)⟩)
      (hissue : h.issue? = some ⟨h.before.episode, h.report, choice⟩)

/-- There are no other ways. -/
theorem course (h : Handling L γ) : h.Course := by
  rcases hresolve : h.before.resolve h.report.reward with ⟨c, e | ⟨⟩⟩
  · have heffects : h.effects = h.before.resolveEffects h.report.reward ++ [] := by
      rw [effects, Controller.effects, hresolve, List.append_nil]
    refine .unresolved e (by rw [hresolve]) (heffects.trans (List.append_nil _))
      (by rw [asking?, hresolve]) ?_ (issue?_of_effects heffects)
    rw [handled, handleReport, hresolve]
  have hhandled : h.handled = c.answer h.report h.measured := by
    rw [handled, handleReport, hresolve]
  have heffects : h.effects =
      h.before.resolveEffects h.report.reward ++ c.answerEffects h.report h.measured := by
    rw [effects, Controller.effects, hresolve]
  have hissue := issue?_of_effects heffects
  by_cases hwarm : c.inWarmup = true
  · rw [answer, if_pos hwarm] at hhandled
    rw [answerEffects, if_pos hwarm] at hissue heffects
    refine .idle (heffects.trans (List.append_nil _)) ?_ (by rw [hhandled, hresolve]) hissue
    rw [asking?, hresolve]
    exact if_pos hwarm
  have hasking : h.asking? = some c := by
    rw [asking?, hresolve]
    exact if_neg hwarm
  rw [answer, if_neg hwarm, choose] at hhandled
  rw [answerEffects, if_neg hwarm, chooseEffects] at hissue heffects
  dsimp only at hhandled
  cases hanswer : (c.strategy.decide h.report.state h.report.current h.measured).outcome with
  | error e =>
    rw [hanswer] at hhandled hissue heffects
    exact .failed c e hresolve heffects hasking hanswer hhandled hissue
  | ok choice =>
    rw [hanswer] at hhandled hissue heffects
    exact .decided c choice hresolve heffects hasking hanswer hhandled hissue

/-- Whoever asks has resolved what was due. -/
theorem resolve_of_asking {h : Handling L γ} {c : Controller L γ} (hasking : h.asking? = some c) :
    h.before.resolve h.report.reward = (c, .ok ()) := by
  rcases h.course with ⟨e, -, -, hnone, -, -⟩ | ⟨-, hnone, -, -⟩ |
    ⟨c', e, hresolve, -, hsome, -, -, -⟩ | ⟨c', choice, hresolve, -, hsome, -, -, -⟩
  · rw [hnone] at hasking
    cases hasking
  · rw [hnone] at hasking
    cases hasking
  · rw [hsome] at hasking
    rwa [Option.some.inj hasking] at hresolve
  · rw [hsome] at hasking
    rwa [Option.some.inj hasking] at hresolve

/-- All work on a report is that of the strategy, if it is asked. -/
theorem work_eq (h : Handling L γ) :
    h.handled.work = h.asking?.elim Work.none fun c => (c.ask h.report h.measured).work := by
  rcases h.course with ⟨e, -, -, hasking, hhandled, -⟩ | ⟨-, hasking, hhandled, -⟩ |
    ⟨c, e, -, -, hasking, -, hhandled, -⟩ | ⟨c, choice, -, -, hasking, -, hhandled, -⟩ <;>
    rw [hasking, hhandled] <;> rfl

end Handling

open Handling

omit [Dice γ] in
/-- At most one decision waits once what is due is resolved. -/
theorem Controller.short_resolve {c : Controller L γ} (hshort : c.pending.length ≤ 2) (raw : Float) :
    (c.resolve raw).1.pending.length ≤ 1 := by
  rw [(c.resolve_queue raw).1, List.length_drop]
  cases hdue : c.due? with
  | none =>
    have := Controller.due?_eq_none hdue
    rw [Option.toList_none, List.length_nil]
    omega
  | some d =>
    rw [Option.toList_some, List.length_singleton]
    omega

omit [Dice γ] in
/-- Resolving hands the strategy the decision that is due, whether or not the log takes its row. -/
theorem Controller.resolve_due (c : Controller L γ) (raw : Float) :
    (c.due? = none ∧ c.resolve raw = (c, .ok ())) ∨
      ∃ d rest, c.due? = some d ∧ c.pending = d :: rest ∧ (c.resolve raw).1.pending = rest ∧
        (c.resolve raw).1.strategy = (c.strategy.recordReward d.previous d.chosen raw).1 := by
  rw [due?, resolve]
  rcases hp : c.pending with - | ⟨d, - | ⟨next, rest⟩⟩
  · exact .inl ⟨rfl, rfl⟩
  · exact .inl ⟨rfl, rfl⟩
  · refine .inr ⟨d, next :: rest, rfl, rfl, ?_, ?_⟩
    · exact (credit_queue { c with pending := next :: rest } d raw).1
    · show (credit { c with pending := next :: rest } d raw).1.strategy = _
      rw [credit]
      rcases c.strategy.recordReward d.previous d.chosen raw with ⟨strategy, e | ⟨⟩⟩
      · rfl
      · exact logRow_strategy _ d raw

/-! ## The books in between -/

section

variable {kind : StrategyKind} {settings : StrategySettings} {history : List HistoryRow}

/-- The books between resolving what is due and answering the report `h`, which finds the controller
`c`: the queue, the strategy's account, the decisions made and those credited tell the same. -/
structure Midway (kind : StrategyKind) (settings : StrategySettings) (history : List HistoryRow)
    (h : Handling L γ) (calls : List (Handling L γ)) (c : Controller L γ) (resolved : List Resolution)
    (waiting : List Issue) : Prop where
  issues : issues calls = resolved.map Resolution.issue ++ waiting
  departures : departures (calls ++ [h]) = resolved.map Resolution.departure
  queue : c.pending = waiting.map Issue.decision
  same_kind : c.strategy.kind = kind
  account : c.strategy.Accounts settings history (resolved.map Resolution.row)
    (waiting.map Issue.filed)

/-- The books are right in between, too. -/
theorem Books.midway {h : Handling L γ} {calls : List (Handling L γ)} {resolved : List Resolution}
    {waiting : List Issue} (hb : Books kind settings history h.before calls resolved waiting) :
    ∃ resolved' waiting', Midway kind settings history h calls
      (h.before.resolve h.report.reward).1 resolved' waiting' := by
  obtain ⟨left, rest, hwaiting, hdue, hkind, haccount, -, -⟩ :=
    Controller.resolve_account hb.queue hb.account h.report.reward
  refine ⟨resolved ++ left.toList.map fun i => ⟨i, h.before.episode, h.report⟩, rest, ?_, ?_, ?_,
    hkind.trans hb.same_kind, ?_⟩
  · rw [hb.issues, hwaiting, List.map_append, List.map_map, List.append_assoc]
    congr 2
    exact (List.map_id _).symm
  · rw [departures_concat, hb.departures, departure?, hdue, List.map_append, List.map_map]
    cases left <;> rfl
  · rw [(h.before.resolve_queue _).1, hdue, hb.queue, hwaiting, ← List.map_drop]
    congr 1
    cases left <;> rfl
  · rw [List.map_append, List.map_map]
    exact haccount

/-- The strategy accepts the throughput of the decision that is due. -/
theorem Books.accepts {c : Controller L γ} {calls : List (Handling L γ)} {resolved : List Resolution}
    {waiting : List Issue} (hb : Books kind settings history c calls resolved waiting)
    {d : PendingDecision} {rest : List PendingDecision} (hd : c.pending = d :: rest) (raw : Float) :
    (c.strategy.recordReward d.previous d.chosen raw).2 = .ok () := by
  have hqueue := hb.queue
  rw [hd] at hqueue
  rcases hwaiting : waiting with - | ⟨i, others⟩ <;> rw [hwaiting] at hqueue
  · cases hqueue
  · rw [(List.cons.inj hqueue).1]
    have haccount := hb.account
    rw [hwaiting] at haccount
    exact (haccount.recordReward raw).1

/-- The credited decisions are in the account. -/
theorem Midway.rewards_eq {h : Handling L γ} {calls : List (Handling L γ)} {c : Controller L γ}
    {resolved : List Resolution} {waiting : List Issue}
    (hm : Midway kind settings history h calls c resolved waiting) :
    rewards (calls ++ [h]) = resolved.map fun r =>
      (r.issue.report.current, r.issue.choice.protocol, r.report.reward) := by
  rw [Handling.rewards_eq, hm.departures, List.map_map]
  rfl

/-! ## What a run carries along -/

/-- A property of the strategy, the decisions that wait, the reports handled and the calls made so far
is carried along by runs if each call keeps it: an accepted throughput, a look at what the log shows,
and a decision, failed or not. -/
structure Carried (kind : StrategyKind) (settings : StrategySettings) (history : List HistoryRow)
    (I : Strategy L γ → List PendingDecision → List (Handling L γ) → List Effect → Prop) :
    Prop where
  reward : ∀ s d rest calls trace raw, rest.length = 1 →
    (s.recordReward d.previous d.chosen raw).2 = .ok () → I s (d :: rest) calls trace →
    I (s.recordReward d.previous d.chosen raw).1 rest calls
      (trace ++ [.reward d.previous d.chosen raw (.ok ())])
  shown : ∀ s waiting calls trace x, x.showsLog = true → I s waiting calls trace →
    I s waiting calls (trace ++ [x])
  quiet : ∀ s waiting calls trace h, h.asking? = none → h.handled.work = Work.none →
    I s waiting calls trace → I s waiting (calls ++ [h]) trace
  failed : ∀ h calls trace c resolved waiting e,
    Midway kind settings history h calls c resolved waiting →
    h.asking? = some c → c.pending.length ≤ 1 → I c.strategy c.pending calls trace →
    (c.ask h.report h.measured).outcome = .error e →
    h.handled.work = (c.ask h.report h.measured).work →
    I (c.ask h.report h.measured).state c.pending (calls ++ [h])
      (trace ++ [.decide h.report.state h.report.current h.measured (.error e)])
  decided : ∀ h calls trace c resolved waiting choice,
    Midway kind settings history h calls c resolved waiting →
    h.asking? = some c → c.pending.length ≤ 1 → I c.strategy c.pending calls trace →
    (c.ask h.report h.measured).outcome = .ok choice →
    h.handled.work = (c.ask h.report h.measured).work →
    I ((c.ask h.report h.measured).state.recordDecision h.report.current choice.protocol
        h.report.state)
      (c.pending ++ [⟨h.report.current, choice.protocol, choice.cost⟩]) (calls ++ [h])
      (trace ++ [.decide h.report.state h.report.current h.measured (.ok choice),
        .file h.report.current choice.protocol h.report.state])

namespace Carried

variable {I : Strategy L γ → List PendingDecision → List (Handling L γ) → List Effect → Prop}

theorem shown_all (hI : Carried kind settings history I) {s : Strategy L γ}
    {waiting : List PendingDecision} {calls : List (Handling L γ)} {shown : List Effect}
    (hshown : ∀ x ∈ shown, x.showsLog = true) {trace : List Effect} (h : I s waiting calls trace) :
    I s waiting calls (trace ++ shown) := by
  induction shown generalizing trace with
  | nil => rwa [List.append_nil]
  | cons x rest ih =>
    have hfirst := hI.shown _ _ _ _ x (hshown x (List.mem_cons_self ..)) h
    have hrest := ih (fun y hy => hshown y (List.mem_cons_of_mem _ hy)) hfirst
    rwa [List.append_assoc] at hrest

/-- Resolving what is due carries the property along. -/
theorem resolve (hI : Carried kind settings history I) {h : Handling L γ}
    {calls : List (Handling L γ)} {trace : List Effect} {resolved : List Resolution}
    {waiting : List Issue} (hb : Books kind settings history h.before calls resolved waiting)
    (hshort : h.before.pending.length ≤ 2)
    (hbefore : I h.before.strategy h.before.pending calls trace) :
    I (h.before.resolve h.report.reward).1.strategy (h.before.resolve h.report.reward).1.pending
      calls (trace ++ h.before.resolveEffects h.report.reward) := by
  obtain ⟨-, -, -, -, -, -, hrefused, -⟩ :=
    Controller.resolve_account hb.queue hb.account h.report.reward
  rcases h.before.resolveEffects_eq h.report.reward with
    ⟨hdue, heffects⟩ | ⟨d, answer, shown, hdue, hshown, heffects, -⟩
  · rcases h.before.resolve_due h.report.reward with ⟨-, hsame⟩ | ⟨d, rest, hsome, -⟩
    · rw [hsame, heffects, List.append_nil]
      exact hbefore
    · rw [hdue] at hsome
      cases hsome
  rcases h.before.resolve_due h.report.reward with ⟨hnone, -⟩ | ⟨d', rest, hsome, hpending, hrest, hs⟩
  · rw [hdue] at hnone
    cases hnone
  obtain rfl : d = d' := Option.some.inj (hdue.symm.trans hsome)
  have hanswer := hb.accepts hpending h.report.reward
  rw [hrest, hs, heffects]
  rw [hpending] at hbefore hshort
  -- two decisions wait, and the strategy does not refuse the older one
  have hone : rest.length = 1 := by
    obtain ⟨next, more, htwo⟩ := Controller.due?_eq_some hdue
    rw [hpending] at htwo
    rw [List.length_cons] at hshort
    rw [(List.cons.inj htwo).2, List.length_cons] at hshort ⊢
    omega
  have haccepted : answer = .ok () := by
    have := hrefused (.reward d.previous d.chosen h.report.reward answer)
      (by rw [heffects]; exact List.mem_cons_self ..)
    rcases answer with e | ⟨⟩
    · cases this
    · rfl
  have hreward := hI.reward _ _ _ _ _ _ hone hanswer hbefore
  rw [haccepted, List.append_cons]
  exact hI.shown_all hshown hreward

/-- Handling a report carries the property along. -/
theorem handling (hI : Carried kind settings history I) {h : Handling L γ}
    {calls : List (Handling L γ)} {trace : List Effect} {resolved : List Resolution}
    {waiting : List Issue} (hb : Books kind settings history h.before calls resolved waiting)
    (hshort : h.before.pending.length ≤ 2)
    (hbefore : I h.before.strategy h.before.pending calls trace) :
    I h.next.strategy h.next.pending (calls ++ [h]) (trace ++ h.effects) := by
  have hresolved := hI.resolve hb hshort hbefore
  have hone := Controller.short_resolve hshort h.report.reward
  obtain ⟨resolved', waiting', hm⟩ := hb.midway (h := h)
  rw [next]
  rcases h.course with ⟨e, -, heffects, hasking, hhandled, -⟩ | ⟨heffects, hasking, hhandled, -⟩ |
    ⟨c, e, hresolve, heffects, hasking, hanswer, hhandled, -⟩ |
    ⟨c, choice, hresolve, heffects, hasking, hanswer, hhandled, -⟩ <;>
    rw [heffects, hhandled]
  · exact hI.quiet _ _ _ _ _ hasking (by rw [hhandled]) hresolved
  · exact hI.quiet _ _ _ _ _ hasking (by rw [hhandled]) hresolved
  · rw [hresolve] at hresolved hone hm
    rw [← List.append_assoc]
    exact hI.failed _ _ _ _ _ _ _ hm hasking hone hresolved hanswer (by rw [hhandled])
  · rw [hresolve] at hresolved hone hm
    rw [← List.append_assoc]
    exact hI.decided _ _ _ _ _ _ _ hm hasking hone hresolved hanswer (by rw [hhandled])

variable {rng : γ}

/-- A carried property that a new strategy has holds in every reachable state. -/
theorem of_run (hI : Carried kind settings history I)
    (hstart : I (Strategy.build kind settings history rng).strategy [] [] []) (log : TrainingLog)
    (warmup : Nat) (events : List Event) :
    I ((runStart kind settings history rng log warmup).after events).strategy
      ((runStart (L := L) kind settings history rng log warmup).after events).pending
      ((runStart kind settings history rng log warmup).handlings events)
      (((runStart (L := L) kind settings history rng log warmup).handlings events).flatMap
        effects) := by
  have hrun := Controller.after_induction
    (P := fun c calls => Ledger (firstDecision warmup) c calls ∧
      (∃ resolved waiting, Books kind settings history c calls resolved waiting) ∧
      I c.strategy c.pending calls (calls.flatMap effects))
    (c := runStart (L := L) kind settings history rng log warmup)
    ?_ ?_ ?_ events
  · exact hrun.2.2
  · rintro c calls log ⟨hl, ⟨resolved, waiting, hb⟩, hbefore⟩
    exact ⟨hl.relog log, ⟨resolved, waiting, hb.relog log⟩, hbefore⟩
  · rintro calls h ⟨hl, ⟨resolved, waiting, hb⟩, hbefore⟩
    refine ⟨hl.handling, hb.handling, ?_⟩
    rw [List.flatMap_append, List.flatMap_singleton]
    exact hI.handling hb hl.short hbefore
  · exact ⟨Ledger.start _ log warmup, ⟨[], [], Books.start kind settings history rng log warmup⟩,
      hstart⟩

/-- Whenever the strategy is asked for a decision, a carried property that a new strategy has holds,
and at most one decision waits. -/
theorem asked (hI : Carried kind settings history I)
    (hstart : I (Strategy.build kind settings history rng).strategy [] [] []) {log : TrainingLog}
    {warmup : Nat} {events : List Event} {n : Nat} {h : Handling L γ} {c : Controller L γ}
    (hn : ((runStart kind settings history rng log warmup).handlings events)[n]? = some h)
    (hasking : h.asking? = some c) :
    (∃ resolved waiting, Midway kind settings history h
        (((runStart kind settings history rng log warmup).handlings events).take n) c resolved
        waiting) ∧
      c.pending.length ≤ 1 ∧
      I c.strategy c.pending
        (((runStart kind settings history rng log warmup).handlings events).take n)
        ((((runStart (L := L) kind settings history rng log warmup).handlings events).take n).flatMap
          effects ++ h.before.resolveEffects h.report.reward) := by
  obtain ⟨hshort, ⟨resolved, waiting, hb⟩, hbefore⟩ := Controller.before_of_run
    (P := fun c calls => c.pending.length ≤ 2 ∧
      (∃ resolved waiting, Books kind settings history c calls resolved waiting) ∧
      I c.strategy c.pending calls (calls.flatMap effects))
    (fun events => ⟨(Ledger.of_run _ log warmup events).short,
      Books.of_run kind settings history rng log warmup events,
      hI.of_run hstart log warmup events⟩) hn
  have hresolve := resolve_of_asking hasking
  have hm := hb.midway (h := h)
  have hone := Controller.short_resolve hshort h.report.reward
  have hresolved := hI.resolve hb hshort hbefore
  rw [hresolve] at hm hone hresolved
  exact ⟨hm, hone, hresolved⟩

end Carried

end

end AdaptiveConsensus
