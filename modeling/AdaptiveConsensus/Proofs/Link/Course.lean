import AdaptiveConsensus.Proofs.Episode.Rounds
import AdaptiveConsensus.Proofs.Link.Steps

/-!
# The controller in the exchange

The controller takes messages from the channel one at a time, handles each and sends its reply before it
takes the next one. However the connections interleave with it, it is where a run over the messages it
has taken would be.

- `Exchange.OnCourse`: that it is there, in the middle of a message too.
- `Exchange.Paced`: how many directives it has sent, and what the sink got.
- `Exchange.reply_of_directive`: each directive is the reply to the message at its place in the channel.
-/

namespace AdaptiveConsensus

open AdaptiveConsensus.Random

variable {L : Learner} {γ σ ε : Type} [Dice γ] [DecisionSink σ ε]

namespace Exchange

variable {clock : Nat → Cost} {x y : Exchange L γ σ ε} {e : ExchangeEvent}

/-! ## The controller -/

open Controller

variable {c₀ : Controller L γ} {s₀ : σ}

/-- Handling a message either fails, as serving it does, or brings the directive that is to be sent. -/
theorem ofMessage_spec (c : Controller L γ) (sink : σ) (m : Message) (measured : Cost) :
    (∃ e work, (Stage.ofMessage c m measured).2 = (.failed e : Stage ε) ∧
      c.serve sink m measured =
        ⟨(Stage.ofMessage (ε := ε) c m measured).1, sink, work, .error e⟩) ∨
    ∃ work d r, (Stage.ofMessage c m measured).2 = (.sending work d : Stage ε) ∧
      m.toReport = .ok r ∧
      c.handleReport r measured = ⟨(Stage.ofMessage (ε := ε) c m measured).1, work, .ok d⟩ := by
  rw [Stage.ofMessage, serve_eq]
  cases hm : m.toReport with
  | error e => exact .inl ⟨_, _, rfl, rfl⟩
  | ok r =>
    dsimp only
    rcases hh : c.handleReport r measured with ⟨c', work, e | d⟩
    · exact .inl ⟨_, _, rfl, rfl⟩
    · exact .inr ⟨work, d, r, rfl, rfl, hh⟩

/-- Serving a message that was handled is delivering the directive. -/
theorem serve_of_handled {c c' : Controller L γ} {m : Message} {r : StateReport} {measured : Cost}
    {work : Work} {d : Directive} (hm : m.toReport = .ok r)
    (hhandled : c.handleReport r measured = ⟨c', work, .ok d⟩) (sink : σ) :
    c.serve sink m measured = c'.deliver sink work d := by
  rw [serve_eq, hm]
  dsimp only
  rw [hhandled]

/-- The controller has served the messages `before` well, and can take up another one. -/
def Ready (clock : Nat → Cost) (budget : Nat) (c₀ : Controller L γ) (s₀ : σ) (before : List Message)
    (c : Controller L γ) (sink : σ) : Prop :=
  Controller.run clock budget c₀ s₀ before = ⟨c, sink, [], .ok ()⟩ ∧ c.episode < budget

/-- Where a controller is on the messages `out` that it has taken, by what it is at. -/
def Position (clock : Nat → Cost) (budget : Nat) (c₀ : Controller L γ) (s₀ : σ) (out : List Message)
    (c : Controller L γ) (sink : σ) : Stage ε → Prop
  | .idle => Controller.run clock budget c₀ s₀ out = ⟨c, sink, [], .ok ()⟩
  | .handling m => ∃ before, out = before ++ [m] ∧ Ready clock budget c₀ s₀ before c sink
  | .sending work d => ∃ before m c' r, out = before ++ [m] ∧
      Ready clock budget c₀ s₀ before c' sink ∧ m.toReport = .ok r ∧
      c'.handleReport r (clock c'.episode) = ⟨c, work, .ok d⟩
  | .failed e => ∃ before m c' sink' work, out = before ++ [m] ∧
      Ready clock budget c₀ s₀ before c' sink' ∧
      c'.serve sink' m (clock c'.episode) = ⟨c, sink, work, .error e⟩

/-- The controller is where a run over the messages it has taken would be. -/
structure OnCourse (clock : Nat → Cost) (c₀ : Controller L γ) (s₀ : σ) (x : Exchange L γ σ ε) :
    Prop where
  bounded : x.channel.taken ≤ x.channel.put.length
  position : Position clock x.budget c₀ s₀ x.channel.out x.controller x.sink x.stage

theorem OnCourse.take (hx : x.OnCourse clock c₀ s₀) {m : Message} (hstage : x.stage = .idle)
    (hbudget : x.controller.episode < x.budget) (hnext : x.channel.put[x.channel.taken]? = some m) :
    OnCourse clock c₀ s₀ { x with channel := x.channel.pop, stage := .handling m } := by
  have hposition := hx.position
  rw [hstage] at hposition
  have hout : x.channel.pop.out = x.channel.out ++ [m] := by
    rw [Channel.pop, Channel.out, Channel.out, List.take_add_one, hnext]
    rfl
  constructor
  · exact (List.getElem?_eq_some_iff.mp hnext).1
  · exact ⟨x.channel.out, hout, hposition, hbudget⟩

theorem OnCourse.handle (hx : x.OnCourse clock c₀ s₀) {m : Message} (hstage : x.stage = .handling m) :
    OnCourse clock c₀ s₀ (x.handle clock m) := by
  have hposition := hx.position
  rw [hstage] at hposition
  obtain ⟨before, hout, hready⟩ := hposition
  refine ⟨hx.bounded, ?_⟩
  show Position clock x.budget c₀ s₀ x.channel.out _ x.sink
    (Stage.ofMessage x.controller m (clock x.controller.episode)).2
  rcases ofMessage_spec (ε := ε) x.controller x.sink m (clock x.controller.episode) with
    ⟨e, work, hnext, hserve⟩ | ⟨work, d, r, hnext, hm, hhandled⟩
  · rw [hnext]
    exact ⟨before, m, x.controller, x.sink, work, hout, hready, hserve⟩
  · rw [hnext]
    exact ⟨before, m, x.controller, r, hout, hready, hm, hhandled⟩

theorem OnCourse.send (hx : x.OnCourse clock c₀ s₀) {work : Work} {d : Directive}
    (hstage : x.stage = .sending work d) : OnCourse clock c₀ s₀ (x.send work d) := by
  have hposition := hx.position
  rw [hstage] at hposition
  obtain ⟨before, m, c, r, hout, ⟨hrun, hlt⟩, hm, hhandled⟩ := hposition
  have hserve : c.serve x.sink m (clock c.episode) = x.controller.deliver x.sink work d :=
    serve_of_handled hm hhandled x.sink
  refine ⟨hx.bounded, ?_⟩
  cases hsent : (x.controller.deliver x.sink work d).outcome with
  | ok _ =>
    have hnext : (x.send work d).stage = .idle := by
      rw [Exchange.send]
      dsimp only
      rw [hsent]
    rw [hnext]
    show Controller.run clock x.budget c₀ s₀ x.channel.out = _
    rw [hout, run_concat hrun hlt hserve, hsent]
    rfl
  | error e =>
    have hnext : (x.send work d).stage = .failed e := by
      rw [Exchange.send]
      dsimp only
      rw [hsent]
    rw [hnext]
    refine ⟨before, m, c, x.sink, (x.controller.deliver x.sink work d).work, hout, ⟨hrun, hlt⟩, ?_⟩
    rw [hserve, ← hsent]
    rfl

/-- The controller stays on its course, whatever the connections do. -/
theorem onCourse_step (hx : x.OnCourse clock c₀ s₀) (hstep : Step clock x e y) :
    y.OnCourse clock c₀ s₀ := by
  cases hstep with
  | handOver i m hphase hreceiving =>
    -- the channel grows behind what was taken
    have hout : (x.channel.push m).out = x.channel.out := List.take_append_of_le_length hx.bounded
    constructor
    · refine Nat.le_trans hx.bounded ?_
      simp [Channel.push]
    · show Position clock x.budget c₀ s₀ (x.channel.push m).out x.controller x.sink x.stage
      rw [hout]
      exact hx.position
  | take m hstage hbudget hnext => exact hx.take hstage hbudget hnext
  | handle m hstage => exact hx.handle hstage
  | send work d hstage => exact hx.send hstage
  | read i line => exact ⟨hx.bounded, hx.position⟩
  | refuse i m => exact ⟨hx.bounded, hx.position⟩
  | acknowledge i written => exact ⟨hx.bounded, hx.position⟩
  | finish i => exact ⟨hx.bounded, hx.position⟩
  | release => exact ⟨hx.bounded, hx.position⟩

theorem onCourse_start (budget : Nat) :
    (start c₀ s₀ budget : Exchange L γ σ ε).OnCourse clock c₀ s₀ :=
  ⟨Nat.le_refl 0, rfl⟩

theorem onCourse_of_run {budget : Nat} {events : List ExchangeEvent}
    (hrun : (start c₀ s₀ budget).run? clock events = some x) : x.OnCourse clock c₀ s₀ :=
  run?_induction (fun hx hstep => onCourse_step hx hstep) (onCourse_start budget) hrun

/-- The budget stays as it is. -/
theorem budget_of_run {budget : Nat} {events : List ExchangeEvent}
    (hrun : (start c₀ s₀ budget).run? clock events = some x) : x.budget = budget := by
  refine run?_induction (P := fun y : Exchange L γ σ ε => y.budget = budget) ?_ rfl hrun
  intro y z e hy hstep
  cases hstep <;> exact hy

/-! ## The directives -/

/-- The messages that the controller is done with. -/
def served (x : Exchange L γ σ ε) : List Message :=
  match x.stage with
  | .idle | .failed _ => x.channel.out
  | .handling _ | .sending _ _ => x.channel.out.dropLast

/-- The directives that the controller has sent, the last one perhaps in vain: the replies of a run over
the messages that it is done with. -/
def directives (clock : Nat → Cost) (c₀ : Controller L γ) (s₀ : σ) (x : Exchange L γ σ ε) :
    List Directive :=
  Controller.directives clock x.budget c₀ s₀ x.served

omit [Dice γ] [DecisionSink σ ε] in
theorem served_prefix (x : Exchange L γ σ ε) : x.served <+: x.channel.put := by
  have hout : x.channel.out <+: x.channel.put := List.take_prefix _ _
  rw [served]
  split
  · exact hout
  · exact hout
  · exact (List.dropLast_prefix _).trans hout
  · exact (List.dropLast_prefix _).trans hout

theorem OnCourse.length_out (hx : x.OnCourse clock c₀ s₀) : x.channel.out.length = x.channel.taken :=
  List.length_take_of_le hx.bounded

/-- How many directives were sent, and what the sink got, by what the controller is at. -/
structure Paced (clock : Nat → Cost) (c₀ : Controller L γ) (s₀ : σ) (x : Exchange L γ σ ε) : Prop where
  /-- Whenever a message can be taken, all that were taken before have been answered. -/
  idle : x.stage = .idle → (x.directives clock c₀ s₀).length = x.channel.taken
  /-- Only the last message taken may be without an answer. -/
  taken : (x.directives clock c₀ s₀).length ≤ x.channel.taken ∧
    x.channel.taken ≤ (x.directives clock c₀ s₀).length + 1
  /-- The sink has got these directives, in order, and nothing else. -/
  sink : x.sink = (x.directives clock c₀ s₀).foldl (fun s d => (DecisionSink.send s d).1) s₀

/-- While a message is in hand, the messages before it have been answered. -/
theorem OnCourse.paced_of_ready (hx : x.OnCourse clock c₀ s₀) {before : List Message} {m : Message}
    {c : Controller L γ} (hout : x.channel.out = before ++ [m])
    (hready : Ready clock x.budget c₀ s₀ before c x.sink)
    (hserved : x.served = x.channel.out.dropLast) (hstage : x.stage ≠ .idle) : x.Paced clock c₀ s₀ := by
  obtain ⟨hrun, -⟩ := hready
  have hlength := hx.length_out
  rw [hout, List.length_append, List.length_singleton] at hlength
  rw [hout, List.dropLast_concat] at hserved
  have hcount : (x.directives clock c₀ s₀).length = before.length := by
    rw [directives, hserved, length_directives hrun]
  have hsink := sink_run clock x.budget c₀ s₀ before
  rw [hrun] at hsink
  refine ⟨fun h => absurd h hstage, by omega, ?_⟩
  rw [directives, hserved]
  exact hsink

/-- A controller on course has sent one directive for each message that it is done with. -/
theorem OnCourse.paced (hx : x.OnCourse clock c₀ s₀) : x.Paced clock c₀ s₀ := by
  have hlength := hx.length_out
  have hposition := hx.position
  cases hstage : x.stage with
  | idle =>
    rw [hstage] at hposition
    have hserved : x.served = x.channel.out := by rw [served, hstage]
    have hcount : (x.directives clock c₀ s₀).length = x.channel.taken := by
      rw [directives, hserved, length_directives hposition, hlength]
    have hsink := sink_run clock x.budget c₀ s₀ x.channel.out
    rw [show Controller.run clock x.budget c₀ s₀ x.channel.out = _ from hposition] at hsink
    refine ⟨fun _ => hcount, by omega, ?_⟩
    rw [directives, hserved]
    exact hsink
  | handling m =>
    rw [hstage] at hposition
    obtain ⟨before, hout, hready⟩ := hposition
    exact hx.paced_of_ready hout hready (by rw [served, hstage]) (by rw [hstage]; exact nofun)
  | sending work d =>
    rw [hstage] at hposition
    obtain ⟨before, m, c, r, hout, hready, -, -⟩ := hposition
    exact hx.paced_of_ready hout hready (by rw [served, hstage]) (by rw [hstage]; exact nofun)
  | failed e =>
    rw [hstage] at hposition
    obtain ⟨before, m, c, sink, work, hout, ⟨hrun, hlt⟩, hserve⟩ := hposition
    have hserved : x.served = before ++ [m] := by rw [served, hstage, hout]
    rw [hout, List.length_append, List.length_singleton] at hlength
    have hcount : (x.directives clock c₀ s₀).length =
        before.length + (c.reply? m (clock c.episode)).toList.length := by
      rw [directives, hserved, directives_concat hrun hlt, List.length_append, length_directives hrun]
    have hlast := Option.length_toList_le (o := c.reply? m (clock c.episode))
    have hsink := sink_run clock x.budget c₀ s₀ (before ++ [m])
    rw [run_concat hrun hlt hserve] at hsink
    refine ⟨fun h => (by rw [hstage] at h; cases h), by omega, ?_⟩
    rw [directives, hserved]
    exact hsink

/-- Each directive is the reply to the message put into the channel at its place, by a controller that has
served all messages before it. -/
theorem reply_of_directive {k : Nat} {d : Directive} (hk : (x.directives clock c₀ s₀)[k]? = some d) :
    ∃ m c sink, x.channel.put[k]? = some m ∧
      Controller.run clock x.budget c₀ s₀ (x.channel.put.take k) = ⟨c, sink, [], .ok ()⟩ ∧
      c.reply? m (clock c.episode) = some d := by
  obtain ⟨r, hr, hreply⟩ := directives_getElem? hk
  obtain ⟨hmet, -⟩ := rounds_getElem? hr
  have hmessage : x.served[k]? = some r.message := by
    have hlt := (List.getElem?_eq_some_iff.mp hr).1
    rw [← rounds_messages clock x.budget c₀ s₀ x.served,
      List.getElem?_append_left (by rwa [List.length_map]), List.getElem?_map, hr]
    rfl
  have hlt := (List.getElem?_eq_some_iff.mp hmessage).1
  obtain ⟨more, hput⟩ := x.served_prefix
  refine ⟨r.message, r.before, r.sink, ?_, ?_, hreply⟩
  · rw [← hput, List.getElem?_append_left hlt, hmessage]
  · rw [← hput, List.take_append_of_le_length (Nat.le_of_lt hlt)]
    exact hmet

end Exchange

end AdaptiveConsensus
