import AdaptiveConsensus.Link.Exchange
import AdaptiveConsensus.Proofs.Link.Connections

/-!
# The steps of the exchange

What a step can be taken on and what it leaves, and what follows for the connections: they stay
consistent, the channel gets what they hand over, and none notices what becomes of another.

- `Exchange.step?_spec`: the steps that can be taken, one constructor of `Exchange.Step` for each.
- `Exchange.Merged`: each connection's messages are in the channel in order, and no others are.
- `Exchange.step?_setConnection`: what others do does not depend on a connection.
- `Exchange.run?_of_breaks`: what follows a broken connection follows without it, too.
-/

namespace AdaptiveConsensus

open AdaptiveConsensus.Random

variable {L : Learner} {γ σ ε : Type} [Dice γ] [DecisionSink σ ε]

namespace Exchange

/-! ## Steps -/

/-- The steps that can be taken, with what they are taken on and what they leave. -/
inductive Step (clock : Nat → Cost) (x : Exchange L γ σ ε) : ExchangeEvent → Exchange L γ σ ε → Prop
  | read (i : Nat) (line : List UInt8) (hphase : (x.connections i).phase = .reading) :
    Step clock x (.read i line) (x.setConnection i ((x.connections i).receive line))
  | handOver (i : Nat) (m : Message) (hphase : (x.connections i).phase = .holding m)
      (hreceiving : x.receiving = true) :
    Step clock x (.handOver i)
      { x.setConnection i ((x.connections i).handOver true).1 with channel := x.channel.push m }
  | refuse (i : Nat) (m : Message) (hphase : (x.connections i).phase = .holding m)
      (hreceiving : x.receiving = false) :
    Step clock x (.handOver i) (x.setConnection i ((x.connections i).handOver false).1)
  | acknowledge (i : Nat) (written : Bool) (hphase : (x.connections i).phase = .owing) :
    Step clock x (.acknowledge i written) (x.setConnection i ((x.connections i).acknowledge written))
  | finish (i : Nat) (hphase : (x.connections i).phase = .reading) :
    Step clock x (.finish i) (x.setConnection i (x.connections i).finish)
  | take (m : Message) (hstage : x.stage = .idle) (hbudget : x.controller.episode < x.budget)
      (hnext : x.channel.put[x.channel.taken]? = some m) :
    Step clock x .take { x with channel := x.channel.pop, stage := .handling m }
  | handle (m : Message) (hstage : x.stage = .handling m) : Step clock x .handle (x.handle clock m)
  | send (work : Work) (d : Directive) (hstage : x.stage = .sending work d) :
    Step clock x .send (x.send work d)
  | release (hdone : x.done = true) : Step clock x .release { x with receiving := false }

/-- There are no others. -/
theorem step?_spec {clock : Nat → Cost} {x y : Exchange L γ σ ε} {e : ExchangeEvent}
    (h : x.step? clock e = some y) : Step clock x e y := by
  cases e with
  | read i line =>
    rw [step?, Option.ite_none_right_eq_some] at h
    obtain ⟨hphase, h⟩ := h
    obtain rfl := Option.some.inj h
    exact .read i line hphase
  | handOver i =>
    rw [step?] at h
    split at h
    · rename_i m hphase
      obtain rfl := Option.some.inj h
      rw [Exchange.handOver]
      cases hreceiving : x.receiving with
      | true =>
        have hstep : Step clock x (.handOver i) _ := .handOver i m hphase hreceiving
        rw [ReportConnection.handOver_taken hphase] at hstep ⊢
        exact hstep
      | false =>
        have hstep : Step clock x (.handOver i) _ := .refuse i m hphase hreceiving
        rw [ReportConnection.handOver_refused hphase] at hstep ⊢
        exact hstep
    · cases h
  | acknowledge i written =>
    rw [step?, Option.ite_none_right_eq_some] at h
    obtain ⟨hphase, h⟩ := h
    obtain rfl := Option.some.inj h
    exact .acknowledge i written hphase
  | finish i =>
    rw [step?, Option.ite_none_right_eq_some] at h
    obtain ⟨hphase, h⟩ := h
    obtain rfl := Option.some.inj h
    exact .finish i hphase
  | take =>
    rw [step?] at h
    split at h
    · rename_i hstage
      split at h
      · rename_i hopen
        rw [Bool.and_eq_true, decide_eq_true_eq] at hopen
        rw [Channel.pop?] at h
        cases hnext : x.channel.put[x.channel.taken]? with
        | none =>
          rw [hnext] at h
          cases h
        | some m =>
          rw [hnext] at h
          obtain rfl := Option.some.inj h
          exact .take m hstage hopen.1 hnext
      · cases h
    · cases h
  | handle =>
    rw [step?] at h
    split at h
    · rename_i m hstage
      obtain rfl := Option.some.inj h
      exact .handle m hstage
    · cases h
  | send =>
    rw [step?] at h
    split at h
    · rename_i work d hstage
      obtain rfl := Option.some.inj h
      exact .send work d hstage
    · cases h
  | release =>
    rw [step?, Option.ite_none_right_eq_some] at h
    obtain ⟨hdone, h⟩ := h
    obtain rfl := Option.some.inj h
    exact .release hdone

/-- What holds at the start and is kept by every step holds after any sequence of steps. -/
theorem run?_induction {clock : Nat → Cost} {P : Exchange L γ σ ε → Prop}
    (hstep : ∀ {x y e}, P x → Step clock x e y → P y) {x y : Exchange L γ σ ε}
    {events : List ExchangeEvent} (hx : P x) (hrun : x.run? clock events = some y) : P y := by
  induction events generalizing x with
  | nil =>
    obtain rfl := Option.some.inj hrun
    exact hx
  | cons e rest ih =>
    obtain ⟨z, hz, hrest⟩ := Option.bind_eq_some_iff.mp hrun
    exact ih (hstep hx (step?_spec hz)) hrest

/-! ## The connections -/

variable {clock : Nat → Cost} {x y : Exchange L γ σ ε} {e : ExchangeEvent}

omit [Dice γ] [DecisionSink σ ε] in
@[simp] theorem connections_setConnection_self (x : Exchange L γ σ ε) (i : Nat) (c : ReportConnection) :
    (x.setConnection i c).connections i = c :=
  if_pos rfl

omit [Dice γ] [DecisionSink σ ε] in
theorem connections_setConnection_of_ne (x : Exchange L γ σ ε) {i j : Nat} (h : j ≠ i)
    (c : ReportConnection) : (x.setConnection i c).connections j = x.connections j :=
  if_neg h

/-- Every connection is consistent. -/
theorem consistent_step (hx : ∀ i, (x.connections i).Consistent) (hstep : Step clock x e y) (i : Nat) :
    (y.connections i).Consistent := by
  have hset : ∀ (j : Nat) (c : ReportConnection), c.Consistent →
      ((x.setConnection j c).connections i).Consistent := by
    intro j c hc
    by_cases hij : i = j
    · rw [hij, connections_setConnection_self]
      exact hc
    · rw [connections_setConnection_of_ne x hij]
      exact hx i
  cases hstep with
  | read j line hphase => exact hset j _ ((hx j).receive hphase line)
  | handOver j m hphase => exact hset j _ ((hx j).handOver hphase true)
  | refuse j m hphase => exact hset j _ ((hx j).handOver hphase false)
  | acknowledge j written hphase => exact hset j _ ((hx j).acknowledge hphase written)
  | finish j hphase => exact hset j _ ((hx j).finish hphase)
  | take => exact hx i
  | handle m => exact hx i
  | send work d => exact hx i
  | release => exact hx i

theorem consistent_of_run {c₀ : Controller L γ} {s₀ : σ} {budget : Nat} {events : List ExchangeEvent}
    (hrun : (start c₀ s₀ budget).run? clock events = some x) (i : Nat) :
    (x.connections i).Consistent :=
  run?_induction (fun hx hstep => consistent_step hx hstep)
    (fun _ => ReportConnection.consistent_fresh) hrun i

/-- The channel got what the connections handed over: the messages of each connection in order, and no
others. -/
def Merged (x : Exchange L γ σ ε) : Prop :=
  ∃ sources : List (Nat × Message), sources.map Prod.snd = x.channel.put ∧
    ∀ i, (sources.filter fun s => s.1 = i).map Prod.snd = (x.connections i).accepted

theorem merged_step (hx : x.Merged) (hstep : Step clock x e y) : y.Merged := by
  obtain ⟨sources, hput, haccepted⟩ := hx
  -- a connection that hands nothing over
  have hset : ∀ (j : Nat) (c : ReportConnection), c.accepted = (x.connections j).accepted →
      ∀ i, (sources.filter fun s => s.1 = i).map Prod.snd =
        ((x.setConnection j c).connections i).accepted := by
    intro j c hc i
    by_cases hij : i = j
    · rw [hij, connections_setConnection_self, hc]
      exact haccepted j
    · rw [connections_setConnection_of_ne x hij]
      exact haccepted i
  cases hstep with
  | read j line => exact ⟨sources, hput, hset j _ rfl⟩
  | handOver j m hphase =>
    refine ⟨sources ++ [(j, m)], ?_, ?_⟩
    · rw [List.map_append, hput]
      rfl
    · intro i
      rw [ReportConnection.handOver_taken hphase, List.filter_append, List.map_append]
      by_cases hij : i = j
      · subst hij
        show _ = ((x.setConnection i _).connections i).accepted
        rw [connections_setConnection_self, haccepted i]
        simp
      · show _ = ((x.setConnection j _).connections i).accepted
        rw [connections_setConnection_of_ne x hij, haccepted i]
        simp [Ne.symm hij]
  | refuse j m hphase =>
    refine ⟨sources, hput, hset j _ ?_⟩
    rw [ReportConnection.handOver_refused hphase]
    rfl
  | acknowledge j written =>
    refine ⟨sources, hput, hset j _ ?_⟩
    cases written <;> rfl
  | finish j => exact ⟨sources, hput, hset j _ rfl⟩
  | take => exact ⟨sources, hput, haccepted⟩
  | handle => exact ⟨sources, hput, haccepted⟩
  | send => exact ⟨sources, hput, haccepted⟩
  | release => exact ⟨sources, hput, haccepted⟩

theorem merged_of_run {c₀ : Controller L γ} {s₀ : σ} {budget : Nat} {events : List ExchangeEvent}
    (hrun : (start c₀ s₀ budget).run? clock events = some x) : x.Merged :=
  run?_induction (fun hx hstep => merged_step hx hstep) ⟨[], rfl, fun _ => rfl⟩ hrun

end Exchange

/-! ## Connections apart -/

namespace ExchangeEvent

/-- The connection that takes a step, if one does. -/
def connection? : ExchangeEvent → Option Nat
  | read i _ | handOver i | acknowledge i _ | finish i => some i
  | take | handle | send | release => none

/-- A step by which a connection breaks: a line that is no message, an acknowledgement that cannot be
written, or its end. -/
def Breaks (i : Nat) : ExchangeEvent → Prop
  | read j line => j = i ∧ Incoming.ofBytes line = .malformed
  | acknowledge j written => j = i ∧ written = false
  | finish j => j = i
  | _ => False

end ExchangeEvent

namespace Exchange

variable {clock : Nat → Cost} {x y : Exchange L γ σ ε} {e : ExchangeEvent} {i : Nat}
  {c : ReportConnection}

omit [Dice γ] [DecisionSink σ ε] in
theorem setConnection_comm (x : Exchange L γ σ ε) {i j : Nat} (h : j ≠ i) (c c' : ReportConnection) :
    (x.setConnection i c).setConnection j c' = (x.setConnection j c').setConnection i c := by
  simp only [setConnection]
  congr 1
  funext k
  by_cases hk : k = j
  · subst hk
    rw [if_pos rfl, if_neg h, if_pos rfl]
  · rw [if_neg hk, if_neg hk]

omit [Dice γ] [DecisionSink σ ε] in
theorem handOver_setConnection (x : Exchange L γ σ ε) {i j : Nat} (h : j ≠ i) (c : ReportConnection) :
    (x.setConnection i c).handOver j = (x.handOver j).setConnection i c := by
  have hreceiving : (x.setConnection i c).receiving = x.receiving := rfl
  rw [Exchange.handOver, Exchange.handOver, connections_setConnection_of_ne x h, hreceiving]
  rcases (x.connections j).handOver x.receiving with ⟨c', - | m⟩
  · exact setConnection_comm x h c c'
  · dsimp only
    rw [setConnection_comm x h c c']
    rfl

/-- What others do does not depend on a connection, and leaves it alone. -/
theorem step?_setConnection (h : e.connection? ≠ some i) (x : Exchange L γ σ ε) (c : ReportConnection) :
    (x.setConnection i c).step? clock e = (x.step? clock e).map fun y => y.setConnection i c := by
  -- a step of another connection finds that connection as it was
  have hother : ∀ {j}, some j ≠ some i → (x.setConnection i c).connections j = x.connections j :=
    fun hj => connections_setConnection_of_ne x (fun hji => hj (congrArg some hji)) c
  have hset : ∀ {j} (phase : ConnectionPhase) (c' : ReportConnection), some j ≠ some i →
      (if (x.connections j).phase = phase then some ((x.setConnection i c).setConnection j c')
        else none) =
      (if (x.connections j).phase = phase then some (x.setConnection j c') else none).map
        fun y => y.setConnection i c := by
    intro j phase c' hj
    by_cases hphase : (x.connections j).phase = phase
    · rw [if_pos hphase, if_pos hphase, Option.map_some,
        setConnection_comm x (fun hji => hj (congrArg some hji))]
    · rw [if_neg hphase, if_neg hphase]
      rfl
  cases e with
  | read j line =>
    rw [step?, step?, hother h]
    exact hset _ _ h
  | handOver j =>
    rw [step?, step?, hother h]
    cases (x.connections j).phase with
    | holding m => exact congrArg some (handOver_setConnection x (fun hj => h (congrArg some hj)) c)
    | _ => rfl
  | acknowledge j written =>
    rw [step?, step?, hother h]
    exact hset _ _ h
  | finish j =>
    rw [step?, step?, hother h]
    exact hset _ _ h
  | take =>
    obtain ⟨connections, channel, controller, sink, stage, budget, receiving⟩ := x
    cases stage with
    | idle =>
      show (if (controller.episode < budget && receiving) = true then _ else none) =
        Option.map _ (if (controller.episode < budget && receiving) = true then _ else none)
      by_cases hopen : (controller.episode < budget && receiving) = true
      · rw [if_pos hopen, if_pos hopen, Option.map_map]
        rfl
      · rw [if_neg hopen, if_neg hopen]
        rfl
    | _ => rfl
  | handle =>
    obtain ⟨connections, channel, controller, sink, stage, budget, receiving⟩ := x
    cases stage <;> rfl
  | send =>
    obtain ⟨connections, channel, controller, sink, stage, budget, receiving⟩ := x
    cases stage <;> rfl
  | release =>
    show (if x.done = true then _ else none) = Option.map _ (if x.done = true then _ else none)
    by_cases hdone : x.done = true
    · rw [if_pos hdone, if_pos hdone]
      rfl
    · rw [if_neg hdone, if_neg hdone]
      rfl

theorem run?_setConnection {events : List ExchangeEvent}
    (h : ∀ e ∈ events, e.connection? ≠ some i) (x : Exchange L γ σ ε) (c : ReportConnection) :
    (x.setConnection i c).run? clock events =
      (x.run? clock events).map fun y => y.setConnection i c := by
  induction events generalizing x with
  | nil => rfl
  | cons e rest ih =>
    rw [run?, run?, step?_setConnection (h e List.mem_cons_self)]
    cases x.step? clock e with
    | none => rfl
    | some y => exact ih (fun e he => h e (List.mem_cons_of_mem _ he)) y

/-- A closed connection takes no steps. -/
theorem open_of_step (hstep : Step clock x e y) (h : e.connection? = some i) :
    (x.connections i).phase ≠ .closed := by
  cases hstep <;> cases h <;> simp_all

theorem connections_step (hstep : Step clock x e y) (h : e.connection? ≠ some i) :
    y.connections i = x.connections i := by
  have hne : ∀ {j}, some j ≠ some i → i ≠ j := fun hj hij => hj (congrArg some hij.symm)
  cases hstep with
  | read j => exact connections_setConnection_of_ne x (hne h) _
  | handOver j => exact connections_setConnection_of_ne x (hne h) _
  | refuse j => exact connections_setConnection_of_ne x (hne h) _
  | acknowledge j => exact connections_setConnection_of_ne x (hne h) _
  | finish j => exact connections_setConnection_of_ne x (hne h) _
  | take => rfl
  | handle => rfl
  | send => rfl
  | release => rfl

/-- Once it is closed it stays as it is. -/
theorem closed_of_run {events : List ExchangeEvent} (hclosed : (x.connections i).phase = .closed)
    (hrun : x.run? clock events = some y) :
    (∀ e ∈ events, e.connection? ≠ some i) ∧ y.connections i = x.connections i := by
  induction events generalizing x with
  | nil =>
    obtain rfl := Option.some.inj hrun
    exact ⟨fun e he => (List.not_mem_nil he).elim, rfl⟩
  | cons e rest ih =>
    obtain ⟨z, hz, hrest⟩ := Option.bind_eq_some_iff.mp hrun
    have hstep := step?_spec hz
    have hne : e.connection? ≠ some i := fun h => open_of_step hstep h hclosed
    have hsame := connections_step hstep hne
    obtain ⟨hothers, hleft⟩ := ih (by rw [hsame]; exact hclosed) hrest
    refine ⟨?_, hleft.trans hsame⟩
    intro e' he'
    rcases List.mem_cons.mp he' with rfl | he'
    · exact hne
    · exact hothers e' he'

/-- A connection that breaks is closed, and nothing else happens. -/
theorem step_of_breaks (hbreaks : e.Breaks i) (hstep : Step clock x e y) :
    ∃ c, c.phase = .closed ∧ y = x.setConnection i c := by
  cases hstep with
  | read j line hphase =>
    obtain ⟨rfl, hline⟩ := hbreaks
    exact ⟨_, by rw [ReportConnection.receive, hline], rfl⟩
  | acknowledge j written hphase =>
    obtain ⟨rfl, rfl⟩ := hbreaks
    exact ⟨_, rfl, rfl⟩
  | finish j hphase =>
    obtain rfl := hbreaks
    exact ⟨_, rfl, rfl⟩
  | _ => cases hbreaks

/-- What follows a broken connection follows without it, too: the others and the controller do not
notice. -/
theorem run?_of_breaks {before after : List ExchangeEvent} (hbreaks : e.Breaks i)
    (hrun : x.run? clock (before ++ e :: after) = some y) :
    ∃ z, x.run? clock (before ++ after) = some z ∧ y = z.setConnection i (y.connections i) := by
  rw [run?_append] at hrun ⊢
  obtain ⟨w, hw, hrun⟩ := Option.bind_eq_some_iff.mp hrun
  obtain ⟨v, hv, hafter⟩ := Option.bind_eq_some_iff.mp hrun
  obtain ⟨c, hclosed, rfl⟩ := step_of_breaks hbreaks (step?_spec hv)
  have hself := connections_setConnection_self w i c
  obtain ⟨hothers, hleft⟩ := closed_of_run (by rw [hself]; exact hclosed) hafter
  rw [run?_setConnection hothers] at hafter
  obtain ⟨z, hz, hset⟩ := Option.map_eq_some_iff.mp hafter
  refine ⟨z, by rw [hw]; exact hz, ?_⟩
  rw [hleft, hself, hset]

end Exchange

end AdaptiveConsensus
