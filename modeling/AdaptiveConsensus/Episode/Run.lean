import AdaptiveConsensus.Episode.Controller
import AdaptiveConsensus.Episode.Sink
import AdaptiveConsensus.Wire.Message

/-!
# Runs

The controller serves messages from a queue until its budget of episodes is spent, the queue is empty
and can get no more messages, or something fails (rl/orchestrator.rs:120-152). A served message is read,
handled, answered through the sink and followed by writing out the log.

* `serve`: one message.
* `run`: a whole queue.
* `serveWith`, `runWith`: the same where handling, delivering and waiting for messages are actions of a
  monad. The program serves with them, among the clock, the files and the network.
-/

namespace AdaptiveConsensus

open AdaptiveConsensus.Random

/-- Why a run ended early. -/
inductive RunError (ε : Type) where
  | malformed (episode : Nat) (cause : Message.ReportError)
  | episode (cause : EpisodeError)
  | send (cause : ε)
  | flush (cause : LogError)

instance {ε : Type} [Cause ε] : Cause (RunError ε) where
  chain
    | .malformed episode cause => s!"Malformed report in episode {episode}" :: Cause.chain cause
    | .episode cause => Cause.chain cause
    | .send cause => Cause.chain cause
    | .flush cause => Cause.chain cause

/-- The outcome of serving a message: what it leaves in either case, the work done, and whether it
went well. -/
structure Served (L : Learner) (γ σ ε : Type) where
  controller : Controller L γ
  sink : σ
  work : Work
  outcome : Except (RunError ε) Unit

/-- The outcome of a run: what it leaves, the messages it did not take, and whether it went well. -/
structure RunResult (L : Learner) (γ σ ε : Type) where
  controller : Controller L γ
  sink : σ
  unread : List Message
  outcome : Except (RunError ε) Unit

namespace Controller

variable {L : Learner} {γ σ ε : Type}

/-- Delivers a directive and writes out the log. -/
def deliver [DecisionSink σ ε] (c : Controller L γ) (sink : σ) (work : Work) (d : Directive) :
    Served L γ σ ε :=
  match DecisionSink.send sink d with
  | (sink, .error e) => ⟨c, sink, work, .error (.send e)⟩
  | (sink, .ok ()) =>
    match c.log.flush with
    | (log, .error e) => ⟨{ c with log := log }, sink, work, .error (.flush e)⟩
    | (log, .ok ()) => ⟨{ c with log := log }, sink, work, .ok ()⟩

section

variable {m : Type → Type} [Monad m]

/-- Serves a message, where `handle` handles a report and `deliver` delivers a directive. A message that
is no report changes nothing. -/
def serveWith (handle : Controller L γ → StateReport → m (Handled L γ))
    (deliver : Controller L γ → σ → Work → Directive → m (Served L γ σ ε))
    (c : Controller L γ) (sink : σ) (message : Message) : m (Served L γ σ ε) :=
  match message.toReport with
  | .error e => pure ⟨c, sink, Work.none, .error (.malformed c.episode e)⟩
  | .ok r => do
    let h ← handle c r
    match h.outcome with
    | .error e => pure ⟨h.controller, sink, h.work, .error (.episode e)⟩
    | .ok d => deliver h.controller sink h.work d

/-- Serves so many messages, unless no more come or one is not served well. -/
def runWith (next : m (Option Message))
    (serve : Controller L γ → σ → Message → m (Served L γ σ ε)) :
    Nat → Controller L γ → σ → m (Controller L γ × σ × Except (RunError ε) Unit)
  | 0, c, sink => pure (c, sink, .ok ())
  | left + 1, c, sink => do
    match ← next with
    | none => pure (c, sink, .ok ())
    | some message =>
      let s ← serve c sink message
      match s.outcome with
      | .error e => pure (s.controller, s.sink, .error e)
      | .ok () => runWith next serve left s.controller s.sink

end

/-- Serves a message. -/
def serve [Dice γ] [DecisionSink σ ε] (c : Controller L γ) (sink : σ) (message : Message)
    (measured : Cost) : Served L γ σ ε :=
  serveWith (m := Id) (fun c r => c.handleReport r measured) deliver c sink message

theorem serve_eq [Dice γ] [DecisionSink σ ε] (c : Controller L γ) (sink : σ) (message : Message)
    (measured : Cost) :
    c.serve sink message measured =
      match message.toReport with
      | .error e => ⟨c, sink, Work.none, .error (.malformed c.episode e)⟩
      | .ok r =>
        let h := c.handleReport r measured
        match h.outcome with
        | .error e => ⟨h.controller, sink, h.work, .error (.episode e)⟩
        | .ok d => h.controller.deliver sink h.work d :=
  rfl

/-- Serves a queue that gets no more messages. The clock tells what each episode costs. -/
def run [Dice γ] [DecisionSink σ ε] (clock : Nat → Cost) (budget : Nat) (c : Controller L γ)
    (sink : σ) : List Message → RunResult L γ σ ε
  | [] => ⟨c, sink, [], .ok ()⟩
  | m :: rest =>
    if budget ≤ c.episode then ⟨c, sink, m :: rest, .ok ()⟩
    else
      let s := c.serve sink m (clock c.episode)
      match s.outcome with
      | .error e => ⟨s.controller, s.sink, rest, .error e⟩
      | .ok () => run clock budget s.controller s.sink rest

end Controller

end AdaptiveConsensus
