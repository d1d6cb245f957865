import AdaptiveConsensus.Forest.Basic
import AdaptiveConsensus.Proofs.Link.Course
import AdaptiveConsensus.Random.Xoshiro

/-!
# All interleavings of the exchange

Any number of connections and the controller take their steps in any order, and any write may fail.
`ExchangeLaws` says what holds after every sequence of steps that can be taken, and so at every point.

- `exchangeLaws`: the laws of the exchange.
-/

namespace AdaptiveConsensus

open AdaptiveConsensus.Random

variable {L : Learner} {γ σ ε : Type} [Dice γ] [DecisionSink σ ε]

open Exchange in
/-- What holds after the steps `events` of the exchange that a controller starts with a sink and a
budget. -/
structure ExchangeLaws (clock : Nat → Cost) (c₀ : Controller L γ) (s₀ : σ) (budget : Nat)
    (events : List ExchangeEvent) (x : Exchange L γ σ ε) : Prop where
  /-- The messages that a connection handed over are, in order and each once, what its first lines are
  that are not blank; none of these is malformed. -/
  accepted : ∀ i, (x.connections i).accepted.map Incoming.report <+: (x.connections i).incoming
  /-- Those of a connection that is ready to read are all handed over. -/
  prompt : ∀ i, (x.connections i).phase = .reading →
    (x.connections i).incoming = (x.connections i).accepted.map Incoming.report
  /-- At most one message is not acknowledged, and none is before it was handed over. -/
  acknowledged : ∀ i, (x.connections i).acknowledged = (x.connections i).accepted.length ∨
    (x.connections i).acknowledged + 1 = (x.connections i).accepted.length
  /-- The channel got these messages and no others, those of each connection in order. -/
  merged : x.Merged
  /-- If a connection breaks, all that follows could have followed without: only the connection itself
  differs. -/
  apart : ∀ before e after i, events = before ++ e :: after → e.Breaks i →
    ∃ z, (start c₀ s₀ budget).run? clock (before ++ after) = some z ∧
      x = z.setConnection i (x.connections i)
  /-- Each directive is the reply to the message put into the channel at its place, by the controller
  that the messages before it leave. -/
  replies : ∀ k d, (x.directives clock c₀ s₀)[k]? = some d →
    ∃ m c sink, x.channel.put[k]? = some m ∧
      Controller.run clock budget c₀ s₀ (x.channel.put.take k) = ⟨c, sink, [], .ok ()⟩ ∧
      c.reply? m (clock c.episode) = some d
  /-- A message is taken only when all that were taken before have been answered. -/
  answered : ∀ y, x.step? clock .take = some y →
    (x.directives clock c₀ s₀).length = x.channel.taken
  /-- Only the last message taken may be without an answer. -/
  latest : (x.directives clock c₀ s₀).length ≤ x.channel.taken ∧
    x.channel.taken ≤ (x.directives clock c₀ s₀).length + 1
  /-- The sink has got these directives, in order, and nothing else. -/
  sent : x.sink = (x.directives clock c₀ s₀).foldl (fun s d => (DecisionSink.send s d).1) s₀

/-- The laws hold whatever lines come, whatever writes fail and in whichever order the connections and
the controller take their steps. -/
theorem exchangeLaws (clock : Nat → Cost) (c₀ : Controller L γ) (s₀ : σ) (budget : Nat)
    {events : List ExchangeEvent} {x : Exchange L γ σ ε}
    (hrun : (Exchange.start c₀ s₀ budget).run? clock events = some x) :
    ExchangeLaws clock c₀ s₀ budget events x := by
  have hconsistent := Exchange.consistent_of_run hrun
  have hcourse := Exchange.onCourse_of_run hrun
  have hbudget := Exchange.budget_of_run hrun
  have hpaced := hcourse.paced
  constructor
  · exact fun i => (hconsistent i).isPrefix
  · exact fun i hphase => ((hconsistent i).of_reading hphase).1
  · exact fun i => (hconsistent i).count
  · exact Exchange.merged_of_run hrun
  · rintro before e after i rfl hbreaks
    exact Exchange.run?_of_breaks hbreaks hrun
  · intro k d hk
    rw [← hbudget]
    exact Exchange.reply_of_directive hk
  · intro y hy
    cases Exchange.step?_spec hy with
    | take m hstage => exact hpaced.idle hstage
  · exact hpaced.taken
  · exact hpaced.sink

/-- The line of a report of slow proposals. -/
def reportLine : List UInt8 :=
  ("\x7b\"report\":\x7b\"0\":1,\"1\":30,\"2\":256,\"5\":6,\"3\":0,\"4\":1,\"-1\":900\x7d," ++
    "\"next_protocol\":\"prime\"\x7d").toUTF8.toList

/-- The controller of the fixed rule with a warm-up of two episodes. -/
def ruleStart : Controller (Forest.learner .default) Xoshiro :=
  Controller.start .ruleBased ⟨BufferedDevice.ofDevice Device.reliable, 0, none⟩ 2

/-- Two connections: one breaks at a malformed line, the other when its message has been handed over and
cannot be acknowledged. Both messages are answered. -/
def exchangeEvents : List ExchangeEvent :=
  [.read 0 reportLine, .read 1 [32], .handOver 0, .read 1 reportLine, .acknowledge 0 true, .take,
    .handOver 1, .handle, .read 0 [123], .acknowledge 1 false, .send, .take, .handle, .send]

theorem exchangeLaws_exchangeEvents :
    ∃ x, (Exchange.start ruleStart Outbox.empty 3).run? (fun _ => Cost.free) exchangeEvents = some x ∧
      x.sink.sent.length = 2 ∧
      ExchangeLaws (fun _ => Cost.free) ruleStart Outbox.empty 3 exchangeEvents x := by
  have hsent : ((Exchange.start ruleStart Outbox.empty 3).run? (fun _ => Cost.free)
      exchangeEvents).map (fun x => x.sink.sent.length) = some 2 := by
    decide +kernel
  obtain ⟨x, hrun, hlength⟩ := Option.map_eq_some_iff.mp hsent
  exact ⟨x, hrun, hlength, exchangeLaws _ ruleStart Outbox.empty 3 hrun⟩

end AdaptiveConsensus
