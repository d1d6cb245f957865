import AdaptiveConsensus.Episode.Controller

/-!
# What the controller does in a call

While it handles a report, the controller calls its strategy and writes to its log. These calls are
its *effects*. `Controller.effects` lists them in order, each with the answer it got, so that
statements can be made about which calls happen, when, and with what arguments.

- `Controller.handleReport_performed`: the list is the truth. Performing the effects one after the
  other, each on what the one before left, gives every answer in the list and leaves exactly the
  strategy and the log that handling the report leaves. So nothing else touches either of them.
-/

namespace AdaptiveConsensus

open AdaptiveConsensus.Random

/-- A call of the controller to its strategy or its log, with its answer. -/
inductive Effect where
  /-- A throughput is attributed to a decision. -/
  | reward (previous chosen : Protocol) (raw : Float) (answer : Except BucketError Unit)
  /-- The state columns of a decision are asked for. -/
  | lookUp (previous chosen : Protocol) (answer : Option Features)
  /-- A row is written to the log. -/
  | write (row : TrainingRow) (answer : Except LogError Unit)
  /-- A decision is asked for. -/
  | decide (state : StateVector) (previous : Protocol) (measured : Cost)
    (answer : Except BucketError Choice)
  /-- A decision is filed. -/
  | file (previous chosen : Protocol) (state : StateVector)

namespace Effect

variable {L : Learner} {γ : Type} [Dice γ]

/-- The decision that an effect credits and the throughput it gets, if it credits one. -/
def rewarded? : Effect → Option (Protocol × Protocol × Float)
  | reward previous chosen raw _ => some (previous, chosen, raw)
  | _ => none

/-- Whether the strategy refused a throughput. -/
def refused : Effect → Bool
  | reward _ _ _ (.error _) => true
  | _ => false

/-- Whether an effect is only about what the log shows. -/
def showsLog : Effect → Bool
  | lookUp _ _ _ | write _ _ => true
  | _ => false

/-- The decision that an effect brought, if it brought one. -/
def choice? : Effect → Option Choice
  | decide _ _ _ (.ok choice) => some choice
  | _ => none

/-- The row that an effect wrote or tried to write. -/
def row? : Effect → Option TrainingRow
  | write row _ => some row
  | _ => none

/-- What an effect leaves of the strategy and the log. -/
def perform (w : Strategy L γ × TrainingLog) : Effect → Strategy L γ × TrainingLog
  | reward previous chosen raw _ => ((w.1.recordReward previous chosen raw).1, w.2)
  | lookUp _ _ _ => w
  | write row _ => (w.1, (w.2.writeRow row).1)
  | decide state previous measured _ => ((w.1.decide state previous measured).state, w.2)
  | file previous chosen state => (w.1.recordDecision previous chosen state, w.2)

/-- Whether an effect's answer is what the strategy or the log gives. -/
def Truthful (w : Strategy L γ × TrainingLog) : Effect → Prop
  | reward previous chosen raw answer => (w.1.recordReward previous chosen raw).2 = answer
  | lookUp previous chosen answer => w.1.previousFeatures previous chosen = answer
  | write row answer => (w.2.writeRow row).2 = answer
  | decide state previous measured answer => (w.1.decide state previous measured).outcome = answer
  | file _ _ _ => True

/-- Performing effects in order, with the answers they list, leads from one strategy and log to
another. -/
def Performed : Strategy L γ × TrainingLog → List Effect → Strategy L γ × TrainingLog → Prop
  | w, [], w' => w = w'
  | w, e :: rest, w' => e.Truthful w ∧ Performed (e.perform w) rest w'

theorem Performed.append {w w' w'' : Strategy L γ × TrainingLog} {es es' : List Effect}
    (h : Performed w es w') (h' : Performed w' es' w'') : Performed w (es ++ es') w'' := by
  induction es generalizing w with
  | nil => exact (show w = w' from h) ▸ h'
  | cons e rest ih => exact ⟨h.1, ih h.2⟩

end Effect

namespace Controller

open Effect

variable {L : Learner} {γ : Type}

/-- The decision whose throughput the next report tells, if two wait. -/
def due? (c : Controller L γ) : Option PendingDecision :=
  match c.pending with
  | d :: _ :: _ => some d
  | _ => none

/-- The effects of showing a resolved decision in the log. -/
def logRowEffects (c : Controller L γ) (d : PendingDecision) (throughput : Float) : List Effect :=
  match c.strategy.previousFeatures d.previous d.chosen with
  | none => [lookUp d.previous d.chosen none]
  | some features =>
    [lookUp d.previous d.chosen (some features),
      write (rowOf d features throughput) (c.log.writeRow (rowOf d features throughput)).2]

/-- The effects of crediting a decision. -/
def creditEffects (c : Controller L γ) (d : PendingDecision) (throughput : Float) : List Effect :=
  match c.strategy.recordReward d.previous d.chosen throughput with
  | (_, .error e) => [reward d.previous d.chosen throughput (.error e)]
  | (strategy, .ok ()) =>
    reward d.previous d.chosen throughput (.ok ()) ::
      logRowEffects { c with strategy := strategy } d throughput

/-- The effects of resolving the decision that is due. -/
def resolveEffects (c : Controller L γ) (throughput : Float) : List Effect :=
  match c.pending with
  | d :: next :: rest => creditEffects { c with pending := next :: rest } d throughput
  | _ => []

/-- The effects of making a decision. -/
def chooseEffects [Dice γ] (c : Controller L γ) (r : StateReport) (measured : Cost) : List Effect :=
  match (c.strategy.decide r.state r.current measured).outcome with
  | .error e => [decide r.state r.current measured (.error e)]
  | .ok choice =>
    [decide r.state r.current measured (.ok choice), file r.current choice.protocol r.state]

/-- The effects of answering a report. -/
def answerEffects [Dice γ] (c : Controller L γ) (r : StateReport) (measured : Cost) : List Effect :=
  if c.inWarmup then [] else c.chooseEffects r measured

/-- The effects of handling a report, in order. -/
def effects [Dice γ] (c : Controller L γ) (r : StateReport) (measured : Cost) : List Effect :=
  match c.resolve r.reward with
  | (_, .error _) => c.resolveEffects r.reward
  | (c', .ok ()) => c.resolveEffects r.reward ++ c'.answerEffects r measured

/-! ## The list is the truth -/

variable [Dice γ]

/-- The strategy and the log of a controller. -/
def world (c : Controller L γ) : Strategy L γ × TrainingLog :=
  (c.strategy, c.log)

theorem logRow_performed (c : Controller L γ) (d : PendingDecision) (throughput : Float) :
    Performed c.world (c.logRowEffects d throughput) (c.logRow d throughput).1.world := by
  rw [logRowEffects, logRow]
  cases h : c.strategy.previousFeatures d.previous d.chosen with
  | none => exact ⟨h, rfl⟩
  | some features =>
    refine ⟨h, rfl, ?_⟩
    dsimp only [perform, world]
    rcases c.log.writeRow (rowOf d features throughput) with ⟨log, e | ⟨⟩⟩ <;> rfl

theorem credit_performed (c : Controller L γ) (d : PendingDecision) (throughput : Float) :
    Performed c.world (c.creditEffects d throughput) (c.credit d throughput).1.world := by
  rw [creditEffects, credit]
  rcases h : c.strategy.recordReward d.previous d.chosen throughput with ⟨strategy, e | ⟨⟩⟩
  · exact ⟨congrArg Prod.snd h, by rw [perform, world, h]; rfl⟩
  · refine ⟨congrArg Prod.snd h, ?_⟩
    rw [perform, world, h]
    exact logRow_performed { c with strategy := strategy } d throughput

theorem resolve_performed (c : Controller L γ) (throughput : Float) :
    Performed c.world (c.resolveEffects throughput) (c.resolve throughput).1.world := by
  rw [resolveEffects, resolve]
  rcases c.pending with - | ⟨d, - | ⟨next, rest⟩⟩
  · rfl
  · rfl
  · exact credit_performed { c with pending := next :: rest } d throughput

theorem choose_performed (c : Controller L γ) (r : StateReport) (measured : Cost) :
    Performed c.world (c.chooseEffects r measured) (c.choose r measured).controller.world := by
  simp only [chooseEffects, choose]
  cases h : (c.strategy.decide r.state r.current measured).outcome with
  | error e => exact ⟨h, rfl⟩
  | ok choice => exact ⟨h, trivial, rfl⟩

theorem answer_performed (c : Controller L γ) (r : StateReport) (measured : Cost) :
    Performed c.world (c.answerEffects r measured) (c.answer r measured).controller.world := by
  rw [answerEffects, answer]
  by_cases h : c.inWarmup
  · rw [if_pos h, if_pos h]
    rfl
  · rw [if_neg h, if_neg h]
    exact choose_performed c r measured

/-- The effects of a call, performed in order with the answers they list, lead from the strategy and
the log before it to the strategy and the log after it. -/
theorem handleReport_performed (c : Controller L γ) (r : StateReport) (measured : Cost) :
    Performed c.world (c.effects r measured) (c.handleReport r measured).controller.world := by
  have hresolve := resolve_performed c r.reward
  rw [effects, handleReport]
  rcases h : c.resolve r.reward with ⟨c', e | ⟨⟩⟩
  · rwa [h] at hresolve
  · rw [h] at hresolve
    exact hresolve.append (answer_performed c' r measured)

end Controller

end AdaptiveConsensus
