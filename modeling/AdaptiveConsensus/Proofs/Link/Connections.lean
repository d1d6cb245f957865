import AdaptiveConsensus.Link.Reception

/-!
# What passes over a connection

A connection hands over the messages that it reads, in order and each once, and acknowledges them one by
one. It stops at the first line that is no message. Whatever else happens to it, it never is more than
one line and one acknowledgement behind.

- `ReportConnection.Consistent`: what a connection has handed over and acknowledged, against the lines
  that it has read.
-/

namespace AdaptiveConsensus

namespace ReportConnection

/-- The line that was read and not handed over, for what a connection does next. A closed connection may
have been closed by one. -/
def LeftOver : ConnectionPhase → Option Incoming → Prop
  | .reading, last => last = none
  | .holding m, last => last = some (.report m)
  | .owing, last => last = none
  | .closed, _ => True

/-- How many acknowledgements were written on so many messages, for what a connection does next. -/
def Acknowledged : ConnectionPhase → (written messages : Nat) → Prop
  | .reading, written, messages => written = messages
  | .holding _, written, messages => written = messages
  | .owing, written, messages => written + 1 = messages
  | .closed, written, messages => written = messages ∨ written + 1 = messages

/-- The messages handed over are what the lines are, in order, but for the last line at most; and all of
them are acknowledged, but for the last one at most. -/
structure Consistent (c : ReportConnection) : Prop where
  accepted : ∃ last : Option Incoming, LeftOver c.phase last ∧
    c.incoming = c.accepted.map Incoming.report ++ last.toList
  acknowledged : Acknowledged c.phase c.acknowledged c.accepted.length

variable {c : ReportConnection} {m : Message}

theorem consistent_fresh : fresh.Consistent :=
  ⟨⟨none, rfl, rfl⟩, rfl⟩

/-! ## One step -/

theorem incoming_receive (c : ReportConnection) (line : List UInt8) :
    (c.receive line).incoming =
      c.incoming ++ [Incoming.ofBytes line].filter fun line => !line.isBlank := by
  simp only [incoming, receive, List.map_append, List.map_cons, List.map_nil, List.filter_append]

/-- The lines of a connection that reads are all handed over and acknowledged. -/
theorem Consistent.of_reading (hc : c.Consistent) (hphase : c.phase = .reading) :
    c.incoming = c.accepted.map Incoming.report ∧ c.acknowledged = c.accepted.length := by
  obtain ⟨⟨last, hlast, haccepted⟩, hacknowledged⟩ := hc
  rw [hphase] at hlast hacknowledged
  obtain rfl : last = none := hlast
  exact ⟨haccepted.trans (List.append_nil _), hacknowledged⟩

theorem Consistent.receive (hc : c.Consistent) (hphase : c.phase = .reading) (line : List UInt8) :
    (c.receive line).Consistent := by
  obtain ⟨haccepted, hacknowledged⟩ := hc.of_reading hphase
  have hincoming := incoming_receive c line
  rw [haccepted] at hincoming
  cases hline : Incoming.ofBytes line with
  | blank =>
    have hnext : (c.receive line).phase = .reading := by rw [ReportConnection.receive, hline]; exact hphase
    constructor
    · refine ⟨none, by rw [hnext]; rfl, ?_⟩
      rw [hincoming, hline]
      rfl
    · rw [hnext]
      exact hacknowledged
  | report m =>
    have hnext : (c.receive line).phase = .holding m := by rw [ReportConnection.receive, hline]
    constructor
    · refine ⟨some (.report m), by rw [hnext]; rfl, ?_⟩
      rw [hincoming, hline]
      rfl
    · rw [hnext]
      exact hacknowledged
  | malformed =>
    have hnext : (c.receive line).phase = .closed := by rw [ReportConnection.receive, hline]
    constructor
    · refine ⟨some .malformed, by rw [hnext]; trivial, ?_⟩
      rw [hincoming, hline]
      rfl
    · rw [hnext]
      exact .inl hacknowledged

theorem handOver_taken (hphase : c.phase = .holding m) :
    c.handOver true = ({ c with accepted := c.accepted ++ [m], phase := .owing }, some m) := by
  rw [handOver, hphase]
  rfl

theorem handOver_refused (hphase : c.phase = .holding m) :
    c.handOver false = (c.finish, none) := by
  rw [handOver, hphase]
  rfl

/-- A message that is taken was the last line. -/
theorem Consistent.handOver (hc : c.Consistent) (hphase : c.phase = .holding m) (taken : Bool) :
    (c.handOver taken).1.Consistent := by
  obtain ⟨⟨last, hlast, haccepted⟩, hacknowledged⟩ := hc
  rw [hphase] at hlast hacknowledged
  obtain rfl : last = some (.report m) := hlast
  have hcount : c.acknowledged = c.accepted.length := hacknowledged
  cases taken with
  | false =>
    rw [handOver_refused hphase]
    exact ⟨⟨_, trivial, haccepted⟩, .inl hcount⟩
  | true =>
    rw [handOver_taken hphase]
    constructor
    · refine ⟨none, rfl, ?_⟩
      refine Eq.trans haccepted ?_
      simp
    · show c.acknowledged + 1 = (c.accepted ++ [m]).length
      rw [List.length_append, List.length_singleton, hcount]

theorem Consistent.acknowledge (hc : c.Consistent) (hphase : c.phase = .owing) (written : Bool) :
    (c.acknowledge written).Consistent := by
  obtain ⟨⟨last, hlast, haccepted⟩, hacknowledged⟩ := hc
  rw [hphase] at hlast hacknowledged
  cases written with
  | false => exact ⟨⟨last, trivial, haccepted⟩, .inr hacknowledged⟩
  | true => exact ⟨⟨last, hlast, haccepted⟩, hacknowledged⟩

theorem Consistent.finish (hc : c.Consistent) (hphase : c.phase = .reading) : c.finish.Consistent := by
  obtain ⟨haccepted, hacknowledged⟩ := hc.of_reading hphase
  exact ⟨⟨none, trivial, haccepted.trans (List.append_nil _).symm⟩, .inl hacknowledged⟩

/-! ## What follows -/

/-- The messages handed over are the decodings of the first lines that are not blank. -/
theorem Consistent.isPrefix (hc : c.Consistent) : c.accepted.map Incoming.report <+: c.incoming := by
  obtain ⟨last, -, haccepted⟩ := hc.accepted
  exact ⟨last.toList, haccepted.symm⟩

/-- At most one of them is not acknowledged, and nothing is acknowledged that was not handed over. -/
theorem Consistent.count (hc : c.Consistent) :
    c.acknowledged = c.accepted.length ∨ c.acknowledged + 1 = c.accepted.length := by
  have hacknowledged := hc.acknowledged
  cases hphase : c.phase <;> rw [hphase] at hacknowledged
  · exact .inl hacknowledged
  · exact .inl hacknowledged
  · exact .inr hacknowledged
  · exact hacknowledged

end ReportConnection

end AdaptiveConsensus
