import AdaptiveConsensus.Episode.Run
import AdaptiveConsensus.Proofs.Episode.Queue

/-!
# Runs round by round

A run serves one message after the other. It stops for one of three reasons: the budget is spent, the
queue is empty, or a message could not be served, and in each case it leaves the rest of the queue.
`Controller.rounds` lists the messages served, each with the controller and the sink that it met, and
`Controller.directives` the replies handed to the sink.

- `Controller.run_induction`: what holds when a run stops, and is handed back by each round that goes
  well, holds of every run.
- `Controller.run_append`: a run over a queue that comes in two parts.
- `Controller.run_resume`, `Controller.rounds_resume`: a run that ended well can be taken up again.
- `Controller.loop_eq`: a run is the loop that takes its messages off the queue one at a time.
- `Controller.run_eq_after`: a run is a sequence of events, in which the reports of its rounds are handled.
- `runLaws`: how runs compose, what one round does, and what a message that is no report does.
-/

namespace AdaptiveConsensus

open AdaptiveConsensus.Random

variable {L : Learner} {γ σ ε : Type} [Dice γ] [DecisionSink σ ε]

/-- The reply to a message, if it is a report that can be handled. -/
def Controller.reply? (c : Controller L γ) (m : Message) (measured : Cost) : Option Directive :=
  match m.toReport with
  | .error _ => none
  | .ok report => (c.handleReport report measured).outcome.toOption

/-- A message that is served, with the controller and the sink that it meets. -/
structure Round (L : Learner) (γ σ : Type) where
  before : Controller L γ
  sink : σ
  message : Message

namespace Round

/-- What serving the message gives. -/
def served (clock : Nat → Cost) (r : Round L γ σ) : Served L γ σ ε :=
  r.before.serve r.sink r.message (clock r.before.episode)

omit [DecisionSink σ ε] in
/-- The reply that is handed to the sink, if there is one. -/
def reply? (clock : Nat → Cost) (r : Round L γ σ) : Option Directive :=
  r.before.reply? r.message (clock r.before.episode)

/-- The call that handles the message, if it is a report. -/
def handling? (clock : Nat → Cost) (r : Round L γ σ) : Option (Handling L γ) :=
  match r.message.toReport with
  | .error _ => none
  | .ok report => some ⟨r.before, report, clock r.before.episode⟩

end Round

/-- Takes the next message off a queue that gets no more. -/
def takeMessage : StateM (List Message) (Option Message) := do
  match ← get with
  | [] => return none
  | m :: rest =>
    set rest
    return some m

namespace Controller

/-- The messages served in a run. -/
def rounds (clock : Nat → Cost) (budget : Nat) (c : Controller L γ) (sink : σ) :
    List Message → List (Round L γ σ)
  | [] => []
  | m :: rest =>
    if budget ≤ c.episode then []
    else
      let s : Served L γ σ ε := c.serve sink m (clock c.episode)
      ⟨c, sink, m⟩ :: match s.outcome with
        | .error _ => []
        | .ok () => rounds clock budget s.controller s.sink rest

/-- The replies handed to the sink in a run. -/
def directives (clock : Nat → Cost) (budget : Nat) (c : Controller L γ) (sink : σ)
    (messages : List Message) : List Directive :=
  (rounds clock budget c sink messages).filterMap (Round.reply? clock)

/-- A run as a loop that takes one message after the other off the queue, at most so many. -/
def loop (clock : Nat → Cost) (left : Nat) (c : Controller L γ) (sink : σ) :
    StateM (List Message) (Controller L γ × σ × Except (RunError ε) Unit) :=
  runWith takeMessage
    (serveWith (fun c r => pure (c.handleReport r (clock c.episode)))
      fun c sink work d => pure (c.deliver sink work d))
    left c sink

/-- The reports handled in a run. -/
def calls (clock : Nat → Cost) (budget : Nat) (c : Controller L γ) (sink : σ)
    (messages : List Message) : List (Handling L γ) :=
  (rounds clock budget c sink messages).filterMap (Round.handling? clock)

/-- Runs of one episode each, at most so many, until one fails. -/
def runByEpisodes (clock : Nat → Cost) : Nat → Controller L γ → σ → List Message → RunResult L γ σ ε
  | 0, c, sink, messages => ⟨c, sink, messages, .ok ()⟩
  | n + 1, c, sink, messages =>
    let r := run clock (c.episode + 1) c sink messages
    match r.outcome with
    | .error _ => r
    | .ok () => runByEpisodes clock n r.controller r.sink r.unread

/-! ## One round -/

variable {clock : Nat → Cost} {budget : Nat} {c : Controller L γ} {sink : σ} {m : Message}
  {rest : List Message}

omit [Dice γ] in
/-- Delivering changes nothing of the controller but the log, and hands the directive to the sink. -/
theorem deliver_spec (c : Controller L γ) (sink : σ) (work : Work) (d : Directive) :
    (c.deliver sink work d).controller.episode = c.episode ∧
      (c.deliver sink work d).sink = (DecisionSink.send sink d).1 := by
  rw [deliver]
  rcases DecisionSink.send sink d with ⟨sink', e | ⟨⟩⟩
  · exact ⟨rfl, rfl⟩
  · dsimp only
    rcases c.log.flush with ⟨log, e | ⟨⟩⟩ <;> exact ⟨rfl, rfl⟩

/-- A report that is answered counts as an episode. -/
theorem episode_handleReport {report : StateReport} {measured : Cost} {d : Directive}
    (h : (c.handleReport report measured).outcome = .ok d) :
    (c.handleReport report measured).controller.episode = c.episode + 1 := by
  let call : Handling L γ := ⟨c, report, measured⟩
  rcases call.progress.ending with ⟨⟨e, hreply⟩, -, -⟩ | ⟨-, -, -, hepisode⟩ |
    ⟨-, choice, -, -, hepisode⟩
  · cases h.symm.trans hreply
  · exact hepisode
  · exact hepisode

/-- A message that is no report changes nothing. -/
theorem serve_of_malformed {e : Message.ReportError} (h : m.toReport = .error e) (measured : Cost) :
    c.serve sink m measured =
      ⟨c, sink, Work.none, .error (.malformed c.episode e)⟩ := by
  rw [serve_eq, h]

/-- Serving hands the sink the reply, if there is one. -/
theorem sink_serve (c : Controller L γ) (sink : σ) (m : Message) (measured : Cost) :
    (c.serve sink m measured).sink =
      (c.reply? m measured).elim sink fun d => (DecisionSink.send sink d).1 := by
  rw [serve_eq, reply?]
  cases m.toReport with
  | error e => rfl
  | ok report =>
    dsimp only
    cases (c.handleReport report measured).outcome with
    | error e => rfl
    | ok d => exact (deliver_spec _ _ _ _).2

/-- A message that is served well is answered by one directive, and counts as one episode. -/
theorem serve_ok {measured : Cost} (h : (c.serve sink m measured).outcome = .ok ()) :
    ∃ d, c.reply? m measured = some d ∧
      (c.serve sink m measured).sink = (DecisionSink.send sink d).1 ∧
      (c.serve sink m measured).controller.episode = c.episode + 1 := by
  have hsink := sink_serve c sink m measured
  rw [serve_eq] at h hsink ⊢
  rw [reply?] at hsink ⊢
  cases hreport : m.toReport with
  | error e =>
    rw [hreport] at h
    cases h
  | ok report =>
    rw [hreport] at h hsink
    dsimp only at h hsink ⊢
    cases hreply : (c.handleReport report measured).outcome with
    | error e =>
      rw [hreply] at h
      cases h
    | ok d =>
      rw [hreply] at hsink
      refine ⟨d, rfl, hsink, ?_⟩
      exact (deliver_spec _ _ _ _).1.trans (episode_handleReport hreply)

/-! ## Whole runs -/

theorem run_of_spent (h : budget ≤ c.episode) (messages : List Message) :
    run clock budget c sink messages = ⟨c, sink, messages, .ok ()⟩ := by
  cases messages with
  | nil => rfl
  | cons m rest => rw [run, if_pos h]

theorem run_of_error {e : RunError ε} (h : c.episode < budget)
    (he : (c.serve sink m (clock c.episode)).outcome = .error e) :
    run clock budget c sink (m :: rest) =
      ⟨(c.serve sink m (clock c.episode)).controller, (c.serve sink m (clock c.episode)).sink, rest,
        .error e⟩ := by
  rw [run, if_neg (Nat.not_le_of_lt h)]
  dsimp only
  rw [he]

theorem run_of_ok (h : c.episode < budget)
    (hok : (c.serve sink m (clock c.episode)).outcome = .ok ()) :
    run clock budget c sink (m :: rest) =
      run clock budget (c.serve sink m (clock c.episode)).controller
        (c.serve sink m (clock c.episode)).sink rest := by
  rw [run, if_neg (Nat.not_le_of_lt h)]
  dsimp only
  rw [hok]

theorem rounds_of_spent (h : budget ≤ c.episode) (messages : List Message) :
    rounds clock budget c sink messages = [] := by
  cases messages with
  | nil => rfl
  | cons m rest => rw [rounds, if_pos h]

theorem rounds_of_error {e : RunError ε} (h : c.episode < budget)
    (he : (c.serve sink m (clock c.episode)).outcome = .error e) :
    rounds clock budget c sink (m :: rest) = [⟨c, sink, m⟩] := by
  rw [rounds, if_neg (Nat.not_le_of_lt h)]
  dsimp only
  rw [he]

theorem rounds_of_ok (h : c.episode < budget)
    (hok : (c.serve sink m (clock c.episode)).outcome = .ok ()) :
    rounds clock budget c sink (m :: rest) =
      ⟨c, sink, m⟩ :: rounds clock budget (c.serve sink m (clock c.episode)).controller
        (c.serve sink m (clock c.episode)).sink rest := by
  rw [rounds, if_neg (Nat.not_le_of_lt h)]
  dsimp only
  rw [hok]

/-- What holds when a run stops at an empty queue, at a spent budget or at a message that cannot be
served, and is handed back by a round that goes well, holds of every run. -/
theorem run_induction {P : Controller L γ → σ → List Message → Prop} (clock : Nat → Cost)
    (budget : Nat)
    (empty : ∀ c sink, P c sink [])
    (spent : ∀ c sink messages, budget ≤ c.episode → P c sink messages)
    (failed : ∀ c sink m rest e, c.episode < budget →
      (c.serve sink m (clock c.episode)).outcome = .error e → P c sink (m :: rest))
    (served : ∀ c sink m rest, c.episode < budget →
      (c.serve sink m (clock c.episode)).outcome = .ok () →
      P (c.serve sink m (clock c.episode)).controller (c.serve sink m (clock c.episode)).sink rest →
      P c sink (m :: rest))
    (c : Controller L γ) (sink : σ) (messages : List Message) : P c sink messages := by
  induction messages generalizing c sink with
  | nil => exact empty c sink
  | cons m rest ih =>
    by_cases h : budget ≤ c.episode
    · exact spent c sink (m :: rest) h
    · have hlt := Nat.lt_of_not_le h
      cases hs : (c.serve sink m (clock c.episode)).outcome with
      | error e => exact failed c sink m rest e hlt hs
      | ok _ => exact served c sink m rest hlt hs (ih _ _)

/-- A run over a queue that comes in two parts: the second part is served if the first is served
without a failure. -/
theorem run_append (clock : Nat → Cost) (budget : Nat) (c : Controller L γ) (sink : σ)
    (messages more : List Message) :
    run clock budget c sink (messages ++ more) =
      let r := run clock budget c sink messages
      match r.outcome with
      | .error e => ⟨r.controller, r.sink, r.unread ++ more, .error e⟩
      | .ok () => run clock budget r.controller r.sink (r.unread ++ more) := by
  induction c, sink, messages using run_induction (L := L) (γ := γ) (σ := σ) clock budget with
  | empty c sink => rfl
  | spent c sink messages h => simp [run_of_spent h]
  | failed c sink m rest e h he => simp [run_of_error h he]
  | served c sink m rest h hok ih =>
    rw [List.cons_append, run_of_ok h hok, run_of_ok h hok]
    exact ih

/-- A run that ended well can be taken up again with a larger budget. -/
theorem run_resume {b₁ b₂ : Nat} (hle : b₁ ≤ b₂) {c : Controller L γ} {sink : σ}
    {messages : List Message} (hok : (run clock b₁ c sink messages).outcome = .ok ()) :
    run clock b₂ (run clock b₁ c sink messages).controller (run clock b₁ c sink messages).sink
      (run clock b₁ c sink messages).unread = run clock b₂ c sink messages := by
  induction c, sink, messages using run_induction (L := L) (γ := γ) (σ := σ) clock b₁ with
  | empty c sink => rfl
  | spent c sink messages h => rw [run_of_spent h]
  | failed c sink m rest e h he =>
    rw [run_of_error h he] at hok
    cases hok
  | served c sink m rest h hs ih =>
    rw [run_of_ok h hs] at hok ⊢
    rw [run_of_ok (Nat.lt_of_lt_of_le h hle) hs]
    exact ih hok

/-- Together the two runs serve the messages that the single run serves, in the same rounds. -/
theorem rounds_resume {b₁ b₂ : Nat} (hle : b₁ ≤ b₂) {c : Controller L γ} {sink : σ}
    {messages : List Message} (hok : (run clock b₁ c sink messages).outcome = .ok ()) :
    rounds clock b₁ c sink messages ++
        rounds clock b₂ (run clock b₁ c sink messages).controller
          (run clock b₁ c sink messages).sink (run clock b₁ c sink messages).unread =
      rounds clock b₂ c sink messages := by
  induction c, sink, messages using run_induction (L := L) (γ := γ) (σ := σ) clock b₁ with
  | empty c sink => rfl
  | spent c sink messages h => rw [run_of_spent h, rounds_of_spent h, List.nil_append]
  | failed c sink m rest e h he =>
    rw [run_of_error h he] at hok
    cases hok
  | served c sink m rest h hs ih =>
    rw [run_of_ok h hs] at hok ⊢
    rw [rounds_of_ok h hs, rounds_of_ok (Nat.lt_of_lt_of_le h hle) hs, List.cons_append, ih hok]

/-- The rounds over a queue that comes in two parts, if the first part is served well. -/
theorem rounds_append {messages : List Message}
    (hok : (run clock budget c sink messages).outcome = .ok ()) (more : List Message) :
    rounds clock budget c sink (messages ++ more) =
      rounds clock budget c sink messages ++
        rounds clock budget (run clock budget c sink messages).controller
          (run clock budget c sink messages).sink
          ((run clock budget c sink messages).unread ++ more) := by
  induction c, sink, messages using run_induction (L := L) (γ := γ) (σ := σ) clock budget with
  | empty c sink => rfl
  | spent c sink messages h =>
    rw [run_of_spent h, rounds_of_spent h, rounds_of_spent h, List.nil_append]
  | failed c sink m rest e h he =>
    rw [run_of_error h he] at hok
    cases hok
  | served c sink m rest h hs ih =>
    rw [run_of_ok h hs] at hok ⊢
    rw [List.cons_append, rounds_of_ok h hs, rounds_of_ok h hs, List.cons_append, ih hok]

/-- A run that ends well has served the whole queue or spent its budget. -/
theorem run_stops {messages : List Message}
    (hok : (run clock budget c sink messages).outcome = .ok ()) :
    (run clock budget c sink messages).unread = [] ∨
      budget ≤ (run clock budget c sink messages).controller.episode := by
  induction c, sink, messages using run_induction (L := L) (γ := γ) (σ := σ) clock budget with
  | empty c sink => exact .inl rfl
  | spent c sink messages h =>
    rw [run_of_spent h]
    exact .inr h
  | failed c sink m rest e h he =>
    rw [run_of_error h he] at hok
    cases hok
  | served c sink m rest h hs ih =>
    rw [run_of_ok h hs] at hok ⊢
    exact ih hok

/-- Runs of one episode each serve an empty queue as it is. -/
theorem runByEpisodes_nil (n : Nat) (c : Controller L γ) (sink : σ) :
    runByEpisodes clock n c sink [] = ⟨c, sink, [], .ok ()⟩ := by
  induction n with
  | zero => rfl
  | succ n ih => exact ih

/-- As many runs of one episode each as there are episodes left are one run. -/
theorem runByEpisodes_eq (clock : Nat → Cost) (budget : Nat) (c : Controller L γ) (sink : σ)
    (messages : List Message) :
    runByEpisodes clock (budget - c.episode) c sink messages = run clock budget c sink messages := by
  induction c, sink, messages using run_induction (L := L) (γ := γ) (σ := σ) clock budget with
  | empty c sink => exact runByEpisodes_nil _ c sink
  | spent c sink messages h =>
    rw [Nat.sub_eq_zero_of_le h, run_of_spent h]
    rfl
  | failed c sink m rest e h he =>
    obtain ⟨n, hn⟩ : ∃ n, budget - c.episode = n + 1 := ⟨budget - c.episode - 1, by omega⟩
    rw [hn, run_of_error h he, runByEpisodes, run_of_error (Nat.lt_succ_self _) he]
  | served c sink m rest h hok ih =>
    obtain ⟨n, hn⟩ : ∃ n, budget - c.episode = n + 1 := ⟨budget - c.episode - 1, by omega⟩
    obtain ⟨-, -, -, hepisode⟩ := serve_ok hok
    -- the run of one episode serves one message, after which its budget is spent
    have hone : run clock (c.episode + 1) c sink (m :: rest) =
        ⟨(c.serve sink m (clock c.episode)).controller, (c.serve sink m (clock c.episode)).sink, rest,
          .ok ()⟩ := by
      rw [run_of_ok (Nat.lt_succ_self _) hok, run_of_spent (Nat.le_of_eq hepisode.symm)]
    have hleft : budget - (c.serve sink m (clock c.episode)).controller.episode = n := by omega
    rw [hn, run_of_ok h hok, ← ih, hleft, runByEpisodes, hone]

/-- Handling and delivering that read the clock and do nothing else serve a message as `serve` does. -/
theorem serveWith_pure {m : Type → Type} [Monad m] [LawfulMonad m] (clock : Nat → Cost)
    (c : Controller L γ) (sink : σ) (message : Message) :
    serveWith (fun c r => pure (c.handleReport r (clock c.episode)))
        (fun c sink work d => pure (c.deliver sink work d)) c sink message =
      (pure (c.serve sink message (clock c.episode)) : m (Served L γ σ ε)) := by
  rw [serveWith, serve_eq]
  cases message.toReport with
  | error e => rfl
  | ok r =>
    dsimp only
    rw [pure_bind]
    cases (c.handleReport r (clock c.episode)).outcome <;> rfl

theorem loop_cons (clock : Nat → Cost) (left : Nat) (c : Controller L γ) (sink : σ) (m : Message)
    (rest : List Message) :
    (loop clock (left + 1) c sink).run (m :: rest) =
      let s : Served L γ σ ε := c.serve sink m (clock c.episode)
      match s.outcome with
      | .error e => ((s.controller, s.sink, .error e), rest)
      | .ok () => (loop clock left s.controller s.sink).run rest := by
  have hserve := serveWith_pure (m := StateM (List Message)) clock c sink m
  rw [loop, runWith, StateT.run_bind]
  show StateT.run (serveWith _ _ c sink m >>= _) rest = _
  rw [hserve, pure_bind]
  dsimp only
  cases (c.serve sink m (clock c.episode)).outcome <;> rfl

/-- The loop does what the run does, if it may serve as many messages as there are episodes left. -/
theorem loop_eq (clock : Nat → Cost) (budget : Nat) (c : Controller L γ) (sink : σ)
    (messages : List Message) :
    (loop clock (budget - c.episode) c sink).run messages =
      let r := run clock budget c sink messages
      ((r.controller, r.sink, r.outcome), r.unread) := by
  induction c, sink, messages using run_induction (L := L) (γ := γ) (σ := σ) clock budget with
  | empty c sink => cases budget - c.episode <;> rfl
  | spent c sink messages h =>
    rw [Nat.sub_eq_zero_of_le h, run_of_spent h]
    rfl
  | failed c sink m rest e h he =>
    obtain ⟨n, hn⟩ : ∃ n, budget - c.episode = n + 1 := ⟨budget - c.episode - 1, by omega⟩
    rw [hn, run_of_error h he, loop_cons]
    dsimp only
    rw [he]
  | served c sink m rest h hok ih =>
    obtain ⟨n, hn⟩ : ∃ n, budget - c.episode = n + 1 := ⟨budget - c.episode - 1, by omega⟩
    -- a message that is served well takes one episode off what is left
    obtain ⟨-, -, -, hepisode⟩ := serve_ok hok
    have hleft : budget - (c.serve sink m (clock c.episode)).controller.episode = n := by omega
    rw [hleft] at ih
    rw [hn, run_of_ok h hok, ← ih, loop_cons]
    dsimp only
    rw [hok]

/-! ## The calls of a run -/

/-- Serving a message is a sequence of events, in which the message is handled if it is a report. -/
theorem serve_eq_after (clock : Nat → Cost) (c : Controller L γ) (sink : σ) (m : Message) :
    ∃ events, (c.serve sink m (clock c.episode) : Served L γ σ ε).controller = c.after events ∧
      ((⟨c, sink, m⟩ : Round L γ σ).handling? clock).toList = c.handlings events := by
  rw [serve_eq, Round.handling?]
  cases m.toReport with
  | error e => exact ⟨[.malformed e], rfl, rfl⟩
  | ok r =>
    dsimp only
    cases (c.handleReport r (clock c.episode)).outcome with
    | error e => exact ⟨[.report r (clock c.episode)], rfl, rfl⟩
    | ok d =>
      dsimp only [deliver]
      rcases DecisionSink.send sink d with ⟨sink', e | ⟨⟩⟩
      · exact ⟨[.report r (clock c.episode)], rfl, rfl⟩
      · refine ⟨[.report r (clock c.episode), .flush], ?_, rfl⟩
        show _ = ({ (c.handleReport r (clock c.episode)).controller with
          log := (c.handleReport r (clock c.episode)).controller.log.flush.1 } : Controller L γ)
        dsimp only
        rcases (c.handleReport r (clock c.episode)).controller.log.flush with ⟨log, e | ⟨⟩⟩ <;> rfl

omit [Dice γ] [DecisionSink σ ε] in
theorem filterMap_handling?_cons (clock : Nat → Cost) (r : Round L γ σ) (rs : List (Round L γ σ)) :
    (r :: rs).filterMap (Round.handling? clock) =
      (r.handling? clock).toList ++ rs.filterMap (Round.handling? clock) := by
  cases h : r.handling? clock <;> simp [h]

/-- A run is a sequence of events, in which the reports of its rounds are handled. -/
theorem run_eq_after (clock : Nat → Cost) (budget : Nat) (c : Controller L γ) (sink : σ)
    (messages : List Message) :
    ∃ events, (run clock budget c sink messages).controller = c.after events ∧
      calls clock budget c sink messages = c.handlings events := by
  induction c, sink, messages using run_induction (L := L) (γ := γ) (σ := σ) clock budget with
  | empty c sink => exact ⟨[], rfl, rfl⟩
  | spent c sink messages h =>
    rw [run_of_spent h, calls, rounds_of_spent h]
    exact ⟨[], rfl, rfl⟩
  | failed c sink m rest e h he =>
    obtain ⟨events, hafter, hcalls⟩ := serve_eq_after clock c sink m
    rw [run_of_error h he, calls, rounds_of_error h he, filterMap_handling?_cons]
    exact ⟨events, hafter, (List.append_nil _).trans hcalls⟩
  | served c sink m rest h hok ih =>
    obtain ⟨events, hafter, hcalls⟩ := serve_eq_after clock c sink m
    obtain ⟨more, hmore, hcallsMore⟩ := ih
    rw [run_of_ok h hok, calls, rounds_of_ok h hok, filterMap_handling?_cons]
    refine ⟨events ++ more, ?_, ?_⟩
    · rw [after_append, ← hafter, hmore]
    · rw [handlings_append, ← hcalls, ← hafter, ← hcallsMore, calls]

omit [DecisionSink σ ε] in
theorem reply?_eq (clock : Nat → Cost) (r : Round L γ σ) :
    r.reply? clock = (r.handling? clock).bind fun h => h.reply.toOption := by
  rw [Round.reply?, reply?, Round.handling?]
  cases r.message.toReport <;> rfl

/-- The directives of a run are the replies of its calls. -/
theorem directives_eq (clock : Nat → Cost) (budget : Nat) (c : Controller L γ) (sink : σ)
    (messages : List Message) :
    directives clock budget c sink messages =
      (calls clock budget c sink messages).filterMap fun h => h.reply.toOption := by
  rw [directives, calls, List.filterMap_filterMap]
  exact congrArg (List.filterMap · _) (funext (reply?_eq clock))

/-! ## The rounds of a run -/

/-- Every round consumes one message, from the front of the queue. -/
theorem rounds_messages (clock : Nat → Cost) (budget : Nat) (c : Controller L γ) (sink : σ)
    (messages : List Message) :
    (rounds clock budget c sink messages).map Round.message ++
      (run clock budget c sink messages).unread = messages := by
  induction c, sink, messages using run_induction (L := L) (γ := γ) (σ := σ) clock budget with
  | empty c sink => rfl
  | spent c sink messages h => simp [run_of_spent h, rounds_of_spent h]
  | failed c sink m rest e h he => simp [run_of_error h he, rounds_of_error h he]
  | served c sink m rest h hok ih => simp [run_of_ok h hok, rounds_of_ok h hok, ih]

/-- A run has no more rounds than episodes are left. -/
theorem length_rounds_le (clock : Nat → Cost) (budget : Nat) (c : Controller L γ) (sink : σ)
    (messages : List Message) :
    (rounds clock budget c sink messages).length ≤ budget - c.episode := by
  induction c, sink, messages using run_induction (L := L) (γ := γ) (σ := σ) clock budget with
  | empty c sink => exact Nat.zero_le _
  | spent c sink messages h => simp [rounds_of_spent h]
  | failed c sink m rest e h he =>
    rw [rounds_of_error h he, List.length_singleton]
    omega
  | served c sink m rest h hok ih =>
    obtain ⟨-, -, -, hepisode⟩ := serve_ok hok
    rw [hepisode] at ih
    rw [rounds_of_ok h hok, List.length_cons]
    omega

/-- A round meets what the run over the messages before it leaves, with episodes left. -/
theorem rounds_getElem? {k : Nat} {r : Round L γ σ} {messages : List Message}
    (hk : (rounds clock budget c sink messages)[k]? = some r) :
    run clock budget c sink (messages.take k) = ⟨r.before, r.sink, [], .ok ()⟩ ∧
      r.before.episode < budget := by
  induction c, sink, messages using run_induction (L := L) (γ := γ) (σ := σ) clock budget
    generalizing k with
  | empty c sink => cases hk
  | spent c sink messages h =>
    rw [rounds_of_spent h] at hk
    cases hk
  | failed c sink m rest e h he =>
    rw [rounds_of_error h he] at hk
    cases k with
    | zero =>
      obtain rfl := Option.some.inj hk
      exact ⟨rfl, h⟩
    | succ k => cases hk
  | served c sink m rest h hok ih =>
    rw [rounds_of_ok h hok] at hk
    cases k with
    | zero =>
      obtain rfl := Option.some.inj hk
      exact ⟨rfl, h⟩
    | succ k =>
      rw [List.take_succ_cons, run_of_ok h hok]
      exact ih hk

/-- A run that ends well has rounds that go well; in one that does not the last round fails, as the
run does, and leaves what the run leaves. -/
theorem run_outcome (clock : Nat → Cost) (budget : Nat) (c : Controller L γ) (sink : σ)
    (messages : List Message) :
    ((run clock budget c sink messages).outcome = .ok () ∧
        (∀ r ∈ rounds clock budget c sink messages, (r.served clock).outcome = .ok ()) ∧
        (run clock budget c sink messages).controller.episode =
          c.episode + (rounds clock budget c sink messages).length) ∨
      ∃ before r e, rounds clock budget c sink messages = before ++ [r] ∧
        (∀ r' ∈ before, (r'.served clock).outcome = .ok ()) ∧
        (r.served clock).outcome = .error e ∧
        run clock budget c sink messages =
          ⟨(r.served clock).controller, (r.served clock).sink,
            (run clock budget c sink messages).unread, .error e⟩ := by
  induction c, sink, messages using run_induction (L := L) (γ := γ) (σ := σ) clock budget with
  | empty c sink => exact .inl ⟨rfl, fun r hr => (List.not_mem_nil hr).elim, rfl⟩
  | spent c sink messages h =>
    rw [run_of_spent h, rounds_of_spent h]
    exact .inl ⟨rfl, fun r hr => (List.not_mem_nil hr).elim, rfl⟩
  | failed c sink m rest e h he =>
    rw [run_of_error h he, rounds_of_error h he]
    exact .inr ⟨[], ⟨c, sink, m⟩, e, rfl, fun r hr => (List.not_mem_nil hr).elim, he, rfl⟩
  | served c sink m rest h hok ih =>
    obtain ⟨-, -, -, hepisode⟩ := serve_ok hok
    rw [run_of_ok h hok, rounds_of_ok h hok]
    have hfirst : ((⟨c, sink, m⟩ : Round L γ σ).served clock).outcome = .ok () := hok
    rcases ih with ⟨hall, hserved, hcount⟩ | ⟨before, r, e, hrounds, hserved, hlast, hrun⟩
    · refine .inl ⟨hall, ?_, ?_⟩
      · intro r hr
        rcases List.mem_cons.mp hr with rfl | hr
        · exact hfirst
        · exact hserved r hr
      · rw [hcount, List.length_cons, hepisode]
        omega
    · refine .inr ⟨⟨c, sink, m⟩ :: before, r, e, by rw [hrounds, List.cons_append], ?_, hlast, hrun⟩
      intro r' hr'
      rcases List.mem_cons.mp hr' with rfl | hr'
      · exact hfirst
      · exact hserved r' hr'

/-- The sink has got the directives of the run, in order, and nothing else. -/
theorem sink_run (clock : Nat → Cost) (budget : Nat) (c : Controller L γ) (sink : σ)
    (messages : List Message) :
    (run clock budget c sink messages).sink =
      (directives clock budget c sink messages).foldl (fun s d => (DecisionSink.send s d).1) sink := by
  induction c, sink, messages using run_induction (L := L) (γ := γ) (σ := σ) clock budget with
  | empty c sink => rfl
  | spent c sink messages h => rw [run_of_spent h, directives, rounds_of_spent h]; rfl
  | failed c sink m rest e h he =>
    have hsink := sink_serve c sink m (clock c.episode)
    rw [run_of_error h he, directives, rounds_of_error h he]
    cases hd : c.reply? m (clock c.episode) with
    | none => simpa [Round.reply?, hd] using hsink
    | some d => simpa [Round.reply?, hd] using hsink
  | served c sink m rest h hok ih =>
    obtain ⟨d, hd, hsink, -⟩ := serve_ok hok
    have hround : (⟨c, sink, m⟩ : Round L γ σ).reply? clock = some d := hd
    rw [run_of_ok h hok, ih, directives, directives, rounds_of_ok h hok,
      List.filterMap_cons_some hround, List.foldl_cons, hsink]

/-! ## One more message -/

/-- A run over one more message ends as serving it does. -/
theorem run_concat {messages : List Message} {c₀ : Controller L γ} {s₀ : σ} {s : Served L γ σ ε}
    (hrun : run clock budget c₀ s₀ messages = ⟨c, sink, [], .ok ()⟩) (hlt : c.episode < budget)
    (hserve : c.serve sink m (clock c.episode) = s) :
    run clock budget c₀ s₀ (messages ++ [m]) = ⟨s.controller, s.sink, [], s.outcome⟩ := by
  subst hserve
  rw [run_append, hrun]
  show run clock budget c sink [m] = _
  cases hs : (c.serve sink m (clock c.episode)).outcome with
  | error e => rw [run_of_error hlt hs]
  | ok _ =>
    rw [run_of_ok hlt hs]
    rfl

/-- It sends the reply to that message, if there is one, and what it sent before. -/
theorem directives_concat {messages : List Message} {c₀ : Controller L γ} {s₀ : σ}
    (hrun : run clock budget c₀ s₀ messages = ⟨c, sink, [], .ok ()⟩) (hlt : c.episode < budget)
    (m : Message) :
    directives clock budget c₀ s₀ (messages ++ [m]) =
      directives clock budget c₀ s₀ messages ++ (c.reply? m (clock c.episode)).toList := by
  have hok : (run clock budget c₀ s₀ messages).outcome = .ok () := by rw [hrun]
  have hlast : rounds clock budget c sink [m] = [⟨c, sink, m⟩] := by
    cases hs : (c.serve sink m (clock c.episode)).outcome with
    | error e => exact rounds_of_error hlt hs
    | ok _ => exact rounds_of_ok hlt hs
  rw [directives, rounds_append hok, hrun, List.nil_append, hlast, List.filterMap_append, directives]
  refine congrArg (_ ++ ·) ?_
  rw [List.filterMap_cons, Round.reply?]
  cases c.reply? m (clock c.episode) <;> rfl

/-- A run that serves every message well sends one directive for each. -/
theorem length_directives {messages : List Message} {c' : Controller L γ} {sink' : σ}
    (hrun : run clock budget c sink messages = ⟨c', sink', [], .ok ()⟩) :
    (directives clock budget c sink messages).length = messages.length := by
  induction c, sink, messages using run_induction (L := L) (γ := γ) (σ := σ) clock budget with
  | empty c sink => rfl
  | spent c sink messages h =>
    rw [run_of_spent h] at hrun
    obtain rfl : messages = [] := congrArg RunResult.unread hrun
    rfl
  | failed c sink m rest e h he =>
    rw [run_of_error h he] at hrun
    cases congrArg RunResult.outcome hrun
  | served c sink m rest h hok ih =>
    obtain ⟨d, hd, -, -⟩ := serve_ok hok
    have hround : (⟨c, sink, m⟩ : Round L γ σ).reply? clock = some d := hd
    rw [run_of_ok h hok] at hrun
    rw [directives, rounds_of_ok h hok, List.filterMap_cons_some hround, List.length_cons,
      List.length_cons]
    exact congrArg (· + 1) (ih hrun)

/-- The directives of a run are the replies of its rounds, one by one: only the last round may be
without. -/
theorem directives_getElem? {messages : List Message} {k : Nat} {d : Directive}
    (hk : (directives clock budget c sink messages)[k]? = some d) :
    ∃ r, (rounds clock budget c sink messages)[k]? = some r ∧ r.reply? clock = some d := by
  induction c, sink, messages using run_induction (L := L) (γ := γ) (σ := σ) clock budget
    generalizing k with
  | empty c sink => cases hk
  | spent c sink messages h =>
    rw [directives, rounds_of_spent h] at hk
    cases hk
  | failed c sink m rest e h he =>
    rw [directives, rounds_of_error h he] at hk
    rw [rounds_of_error h he]
    cases hd : (⟨c, sink, m⟩ : Round L γ σ).reply? clock with
    | none =>
      rw [List.filterMap_cons_none hd] at hk
      cases hk
    | some d' =>
      rw [List.filterMap_cons_some hd] at hk
      cases k with
      | zero => exact ⟨_, rfl, hd.trans hk⟩
      | succ k => cases hk
  | served c sink m rest h hok ih =>
    obtain ⟨d', hd, -, -⟩ := serve_ok hok
    have hround : (⟨c, sink, m⟩ : Round L γ σ).reply? clock = some d' := hd
    rw [directives, rounds_of_ok h hok, List.filterMap_cons_some hround] at hk
    rw [rounds_of_ok h hok]
    cases k with
    | zero => exact ⟨_, rfl, hround.trans hk⟩
    | succ k => exact ih hk

/-! ## A message that is no report -/

variable {c' : Controller L γ} {sink' : σ} {before after : List Message} {e : Message.ReportError}

/-- A message that is no report ends the run that comes to it. The message is gone, and nothing else
has changed. -/
theorem run_of_malformed
    (hbefore : run clock budget c sink before = ⟨c', sink', [], .ok ()⟩) (hlt : c'.episode < budget)
    (hm : m.toReport = .error e) (after : List Message) :
    run clock budget c sink (before ++ m :: after) =
        ⟨c', sink', after, .error (.malformed c'.episode e)⟩ ∧
      directives clock budget c sink (before ++ m :: after) =
        directives clock budget c sink before := by
  have hserve : c'.serve sink' m (clock c'.episode) =
      ⟨c', sink', Work.none, .error (.malformed c'.episode e)⟩ := serve_of_malformed hm _
  have hfails : (c'.serve sink' m (clock c'.episode)).outcome = .error (.malformed c'.episode e) := by
    rw [hserve]
  have hreply : (⟨c', sink', m⟩ : Round L γ σ).reply? clock = none := by
    rw [Round.reply?, reply?, hm]
  constructor
  · rw [run_append, hbefore]
    dsimp only [List.nil_append]
    rw [run_of_error hlt hfails, hserve]
  · have hok : (run clock budget c sink before).outcome = .ok () := by rw [hbefore]
    rw [directives, rounds_append hok, hbefore, List.nil_append, rounds_of_error hlt hfails,
      List.filterMap_append, List.filterMap_cons_none hreply, List.filterMap_nil, List.append_nil,
      directives]

/-- A further run behaves as if the message had never been queued. -/
theorem run_past_malformed {more : Nat} (hle : budget ≤ more)
    (hbefore : run clock budget c sink before = ⟨c', sink', [], .ok ()⟩) (after : List Message) :
    run clock more c' sink' after = run clock more c sink (before ++ after) ∧
      directives clock budget c sink before ++ directives clock more c' sink' after =
        directives clock more c sink (before ++ after) := by
  have hok : (run clock budget c sink before).outcome = .ok () := by rw [hbefore]
  -- with the larger budget the messages before it are served in the same way
  have hmore : run clock more c sink before = ⟨c', sink', [], .ok ()⟩ := by
    have hresume := run_resume hle hok
    rw [hbefore] at hresume
    exact hresume.symm
  have hokMore : (run clock more c sink before).outcome = .ok () := by rw [hmore]
  have hrounds : rounds clock more c sink before = rounds clock budget c sink before := by
    have hresume := rounds_resume hle hok
    rw [hbefore] at hresume
    exact hresume.symm.trans (List.append_nil _)
  constructor
  · rw [run_append, hmore]
    rfl
  · rw [directives, directives, directives, rounds_append hokMore, hmore, hrounds, List.nil_append,
      List.filterMap_append]

end Controller

open Controller

/-- How the runs from one controller over one queue hang together. -/
structure RunLaws (clock : Nat → Cost) (c : Controller L γ) (sink : σ) (messages : List Message) :
    Prop where
  /-- A run that ended well, taken up again with a budget that is not smaller, comes to what the one
  run with that budget comes to, by the same directives. -/
  resumed : ∀ b₁ b₂ c' sink' unread, b₁ ≤ b₂ →
    run clock b₁ c sink messages = ⟨c', sink', unread, .ok ()⟩ →
      run clock b₂ c' sink' unread = run clock b₂ c sink messages ∧
      directives clock b₁ c sink messages ++ directives clock b₂ c' sink' unread =
        directives clock b₂ c sink messages
  /-- So does one episode at a time. -/
  episodes : ∀ budget, runByEpisodes clock (budget - c.episode) c sink messages =
    run clock budget c sink messages
  /-- So does the loop that takes one message after the other off the queue. -/
  looped : ∀ budget, (loop clock (budget - c.episode) c sink).run messages =
    let r := run clock budget c sink messages
    ((r.controller, r.sink, r.outcome), r.unread)
  /-- A run is a sequence of events, in which the reports of its rounds are handled. -/
  called : ∀ budget, ∃ events, (run clock budget c sink messages).controller = c.after events ∧
    calls clock budget c sink messages = c.handlings events
  /-- Its directives are the replies to these reports. -/
  replied : ∀ budget, directives clock budget c sink messages =
    (calls clock budget c sink messages).filterMap fun h => h.reply.toOption
  /-- Every round consumes one message, and there are no more rounds than episodes left. -/
  consumed : ∀ budget,
    (rounds clock budget c sink messages).map Round.message ++
      (run clock budget c sink messages).unread = messages ∧
    (rounds clock budget c sink messages).length ≤ budget - c.episode
  /-- Every round meets what the run over the messages before it leaves, with its budget not spent. -/
  met : ∀ budget k r, (rounds clock budget c sink messages)[k]? = some r →
    run clock budget c sink (messages.take k) = ⟨r.before, r.sink, [], .ok ()⟩ ∧
      r.before.episode < budget
  /-- A round that goes well sends one directive, which is its reply, and counts as one episode. -/
  advanced : ∀ budget, ∀ r ∈ rounds clock budget c sink messages, (r.served clock).outcome = .ok () →
    ∃ d, r.reply? clock = some d ∧ (r.served clock).sink = (DecisionSink.send r.sink d).1 ∧
      (r.served clock).controller.episode = r.before.episode + 1
  /-- Either all rounds go well, and the run ends well because its queue or its budget is used up; or
  all but the last do, and the run ends as the last one does. -/
  ended : ∀ budget,
    ((run clock budget c sink messages).outcome = .ok () ∧
      (∀ r ∈ rounds clock budget c sink messages, (r.served clock).outcome = .ok ()) ∧
      (run clock budget c sink messages).controller.episode =
        c.episode + (rounds clock budget c sink messages).length ∧
      ((run clock budget c sink messages).unread = [] ∨
        budget ≤ (run clock budget c sink messages).controller.episode)) ∨
    ∃ before r e, rounds clock budget c sink messages = before ++ [r] ∧
      (∀ r' ∈ before, (r'.served clock).outcome = .ok ()) ∧
      (r.served clock).outcome = .error e ∧
      run clock budget c sink messages =
        ⟨(r.served clock).controller, (r.served clock).sink,
          (run clock budget c sink messages).unread, .error e⟩
  /-- The sink has got the directives, in order, and nothing else. -/
  sent : ∀ budget, (run clock budget c sink messages).sink =
    (directives clock budget c sink messages).foldl (fun s d => (DecisionSink.send s d).1) sink
  /-- A message that is no report ends the run that comes to it, and only the message is gone: a
  further run behaves as if it had never been queued. -/
  refused : ∀ budget before m after c' sink' e, messages = before ++ m :: after →
    m.toReport = .error e → run clock budget c sink before = ⟨c', sink', [], .ok ()⟩ →
    c'.episode < budget →
      run clock budget c sink messages = ⟨c', sink', after, .error (.malformed c'.episode e)⟩ ∧
      directives clock budget c sink messages = directives clock budget c sink before ∧
      ∀ more, budget ≤ more →
        run clock more c' sink' after = run clock more c sink (before ++ after) ∧
        directives clock budget c sink messages ++ directives clock more c' sink' after =
          directives clock more c sink (before ++ after)

/-- The laws hold of every controller, every sink and every queue. -/
theorem runLaws (clock : Nat → Cost) (c : Controller L γ) (sink : σ) (messages : List Message) :
    RunLaws clock c sink messages where
  resumed := by
    intro b₁ b₂ c' sink' unread hle hrun
    have hok : (run clock b₁ c sink messages).outcome = .ok () := by rw [hrun]
    have hresume := run_resume hle hok
    have hrounds := rounds_resume hle hok
    rw [hrun] at hresume hrounds
    constructor
    · exact hresume
    · rw [directives, directives, directives, ← hrounds, List.filterMap_append]
  episodes := fun budget => runByEpisodes_eq clock budget c sink messages
  looped := fun budget => loop_eq clock budget c sink messages
  called := fun budget => run_eq_after clock budget c sink messages
  replied := fun budget => directives_eq clock budget c sink messages
  consumed := fun budget =>
    ⟨rounds_messages clock budget c sink messages, length_rounds_le clock budget c sink messages⟩
  met := fun _ _ _ hk => rounds_getElem? hk
  advanced := fun _ _ _ hok => serve_ok hok
  ended := by
    intro budget
    rcases run_outcome clock budget c sink messages with ⟨hok, hserved, hcount⟩ | hfailed
    · exact .inl ⟨hok, hserved, hcount, run_stops hok⟩
    · exact .inr hfailed
  sent := fun budget => sink_run clock budget c sink messages
  refused := by
    rintro budget before m after c' sink' e rfl hm hbefore hlt
    obtain ⟨hrun, hsent⟩ := run_of_malformed hbefore hlt hm after
    refine ⟨hrun, hsent, fun more hle => ?_⟩
    rw [hsent]
    exact run_past_malformed hle hbefore after

end AdaptiveConsensus
