import AdaptiveConsensus.Episode.Run
import AdaptiveConsensus.Link.Reception

/-!
# The exchange of reports and directives

The connections and the controller run side by side and share a channel, into which the connections put
messages and from which the controller takes them in the same order (comm/server.rs:32-74,
rl/orchestrator.rs:120-152). The exchange is a machine that takes one step of one of them at a time;
which one is next is open, so that what holds of all its runs holds of every interleaving.

* `Channel`: the queue between them.
* `Exchange.step?`: one step.
* `Exchange.run?`: a sequence of steps.
-/

namespace AdaptiveConsensus

open AdaptiveConsensus.Random

/-- A queue without bound: everything ever put in, and how much of it was taken out. -/
structure Channel where
  put : List Message
  taken : Nat

namespace Channel

/-- Nothing put in yet. -/
def empty : Channel := ⟨[], 0⟩

/-- The messages taken out. -/
def out (c : Channel) : List Message :=
  c.put.take c.taken

/-- The channel with one more message. -/
def push (c : Channel) (m : Message) : Channel :=
  { c with put := c.put ++ [m] }

/-- The channel with one message less that waits. -/
def pop (c : Channel) : Channel :=
  { c with taken := c.taken + 1 }

/-- The oldest message that waits, and the channel without it. -/
def pop? (c : Channel) : Option (Message × Channel) :=
  (c.put[c.taken]?).map fun m => (m, c.pop)

end Channel

/-- A step of the exchange. -/
inductive ExchangeEvent where
  /-- A line reaches a connection and is read. -/
  | read (connection : Nat) (line : List UInt8)
  /-- A connection hands over the message that it has read. -/
  | handOver (connection : Nat)
  /-- A connection tries to write an acknowledgement. -/
  | acknowledge (connection : Nat) (written : Bool)
  /-- The other side ends a connection. -/
  | finish (connection : Nat)
  /-- The controller takes a message. -/
  | take
  /-- The controller handles the message that it took. -/
  | handle
  /-- The controller sends its reply. -/
  | send
  /-- The controller, which is done, gives up its end of the channel. -/
  | release

/-- What the controller is at. -/
inductive Stage (ε : Type) where
  /-- It waits for a message, or is done. -/
  | idle
  | handling (m : Message)
  | sending (work : Work) (d : Directive)
  | failed (cause : RunError ε)

/-- What handling a message leaves of the controller, and what the controller is at then. -/
def Stage.ofMessage {L : Learner} {γ ε : Type} [Dice γ] (c : Controller L γ) (m : Message)
    (measured : Cost) : Controller L γ × Stage ε :=
  match m.toReport with
  | .error e => (c, .failed (.malformed c.episode e))
  | .ok r =>
    let h := c.handleReport r measured
    match h.outcome with
    | .error e => (h.controller, .failed (.episode e))
    | .ok d => (h.controller, .sending h.work d)

/-- The connections, the channel and the controller. -/
structure Exchange (L : Learner) (γ σ ε : Type) where
  connections : Nat → ReportConnection
  channel : Channel
  controller : Controller L γ
  sink : σ
  stage : Stage ε
  /-- How many episodes the controller may come to. -/
  budget : Nat
  /-- Whether the controller still holds its end of the channel. -/
  receiving : Bool

namespace Exchange

variable {L : Learner} {γ σ ε : Type}

/-- The exchange at the start: no connection has read anything. -/
def start (controller : Controller L γ) (sink : σ) (budget : Nat) : Exchange L γ σ ε :=
  ⟨fun _ => .fresh, .empty, controller, sink, .idle, budget, true⟩

/-- Whether the controller has failed or has spent its budget. -/
def done (x : Exchange L γ σ ε) : Bool :=
  match x.stage with
  | .idle => x.budget ≤ x.controller.episode
  | .failed _ => true
  | .handling _ | .sending _ _ => false

/-- The exchange with one connection replaced. -/
def setConnection (x : Exchange L γ σ ε) (i : Nat) (c : ReportConnection) : Exchange L γ σ ε :=
  { x with connections := fun j => if j = i then c else x.connections j }

/-- A connection puts the message that it holds into the channel. -/
def handOver (x : Exchange L γ σ ε) (i : Nat) : Exchange L γ σ ε :=
  match (x.connections i).handOver x.receiving with
  | (c, none) => x.setConnection i c
  | (c, some m) => { x.setConnection i c with channel := x.channel.push m }

/-- The controller handles a message. The clock tells what each episode costs. -/
def handle [Dice γ] (clock : Nat → Cost) (x : Exchange L γ σ ε) (m : Message) : Exchange L γ σ ε :=
  let after := Stage.ofMessage x.controller m (clock x.controller.episode)
  { x with controller := after.1, stage := after.2 }

/-- The controller sends a directive. -/
def send [DecisionSink σ ε] (x : Exchange L γ σ ε) (work : Work) (d : Directive) : Exchange L γ σ ε :=
  let s := x.controller.deliver x.sink work d
  { x with
    controller := s.controller
    sink := s.sink
    stage := match s.outcome with
      | .ok () => .idle
      | .error e => .failed e }

/-- The exchange after a step, if the step can be taken. -/
def step? [Dice γ] [DecisionSink σ ε] (clock : Nat → Cost) (x : Exchange L γ σ ε) :
    ExchangeEvent → Option (Exchange L γ σ ε)
  | .read i line =>
    if (x.connections i).phase = .reading then some (x.setConnection i ((x.connections i).receive line))
    else none
  | .handOver i =>
    match (x.connections i).phase with
    | .holding _ => some (x.handOver i)
    | _ => none
  | .acknowledge i written =>
    if (x.connections i).phase = .owing then
      some (x.setConnection i ((x.connections i).acknowledge written))
    else none
  | .finish i =>
    if (x.connections i).phase = .reading then some (x.setConnection i (x.connections i).finish)
    else none
  | .take =>
    match x.stage with
    | .idle =>
      if x.controller.episode < x.budget && x.receiving then
        x.channel.pop?.map fun (m, channel) => { x with channel := channel, stage := .handling m }
      else none
    | _ => none
  | .handle =>
    match x.stage with
    | .handling m => some (x.handle clock m)
    | _ => none
  | .send =>
    match x.stage with
    | .sending work d => some (x.send work d)
    | _ => none
  | .release => if x.done then some { x with receiving := false } else none

/-- The exchange after a sequence of steps, if all of them can be taken. -/
def run? [Dice γ] [DecisionSink σ ε] (clock : Nat → Cost) (x : Exchange L γ σ ε) :
    List ExchangeEvent → Option (Exchange L γ σ ε)
  | [] => some x
  | e :: rest => (x.step? clock e).bind fun x => run? clock x rest

theorem run?_append [Dice γ] [DecisionSink σ ε] (clock : Nat → Cost) (x : Exchange L γ σ ε)
    (es fs : List ExchangeEvent) :
    x.run? clock (es ++ fs) = (x.run? clock es).bind fun x => x.run? clock fs := by
  induction es generalizing x with
  | nil => rfl
  | cons e es ih =>
    simp only [List.cons_append, run?]
    cases x.step? clock e with
    | none => rfl
    | some y => simpa using ih y

end Exchange

end AdaptiveConsensus
