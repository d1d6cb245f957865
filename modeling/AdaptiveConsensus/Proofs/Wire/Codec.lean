import AdaptiveConsensus.Proofs.Decimal.Width
import AdaptiveConsensus.Proofs.Text.Names
import AdaptiveConsensus.Wire.Message

/-!
# Reports as messages

A message is a report if it has seven numbers and names a protocol. The numbers are found by their ids,
the ids of a state not being in the order of its features; writing and reading use one list of ids, so
that each number comes back in its own place.

- `FeatureMap.ext_get?`: a map is what is read from it.
- `Message.toReport_eq_ok_iff`: the report that a message is, number by number.
- `Message.report_codec`: reading and writing undo each other, up to what a message has beside a report
  and up to the width of the numbers.
-/

namespace AdaptiveConsensus

open Decimal Text

/-! ## Maps -/

namespace FeatureMap

variable {m m' : FeatureMap} {id : Int} {x : Float32} {ids : List Int} {xs : List Float32}

/-- No number stands at an id below all ids. -/
theorem lookup_of_lt {entries : List (Int × Float32)} (h : ∀ e ∈ entries, id < e.1) :
    lookup id entries = none := by
  induction entries with
  | nil => rfl
  | cons head rest ih =>
    obtain ⟨hhead, hrest⟩ := List.forall_mem_cons.mp h
    rw [lookup, if_neg (Int.ne_of_lt hhead)]
    exact ih hrest

theorem lookup_head (id : Int) (x : Float32) (rest : List (Int × Float32)) :
    lookup id ((id, x) :: rest) = some x := by
  rw [lookup, if_pos rfl]

/-- Where the numbers are the same, the first id is not below all ids of the other entries. -/
theorem head_le_of_lookup {k k' : Int} {y : Float32} {rest rest' : List (Int × Float32)}
    (hascending' : ∀ e ∈ rest', k' < e.1)
    (h : lookup k ((k, x) :: rest) = lookup k ((k', y) :: rest')) : k' ≤ k := by
  by_contra hlt
  rw [not_le] at hlt
  rw [lookup_head, lookup_of_lt (List.forall_mem_cons.mpr
    ⟨hlt, fun e he => Int.lt_trans hlt (hascending' e he)⟩)] at h
  cases h

/-- Entries with ascending ids are determined by the numbers at the ids. -/
theorem eq_of_lookup {entries entries' : List (Int × Float32)}
    (hascending : entries.Pairwise fun a b => a.1 < b.1)
    (hascending' : entries'.Pairwise fun a b => a.1 < b.1)
    (h : ∀ id, lookup id entries = lookup id entries') : entries = entries' := by
  induction entries generalizing entries' with
  | nil =>
    cases entries' with
    | nil => rfl
    | cons head' rest' => cases (h head'.1).trans (lookup_head ..)
  | cons head rest ih =>
    obtain ⟨k, x⟩ := head
    obtain ⟨hhead, hrest⟩ := List.pairwise_cons.mp hascending
    cases entries' with
    | nil => cases (lookup_head ..).symm.trans (h k)
    | cons head' rest' =>
      obtain ⟨k', x'⟩ := head'
      obtain ⟨hhead', hrest'⟩ := List.pairwise_cons.mp hascending'
      obtain rfl : k = k' :=
        Int.le_antisymm (head_le_of_lookup hhead (h k').symm) (head_le_of_lookup hhead' (h k))
      have hx := h k
      rw [lookup_head, lookup_head] at hx
      cases hx
      refine congrArg _ (ih hrest hrest' fun id => ?_)
      have hid := h id
      rw [lookup, lookup] at hid
      by_cases heq : id = k
      · rw [heq, lookup_of_lt hhead, lookup_of_lt hhead']
      · rwa [if_neg heq, if_neg heq] at hid

/-- A map is what is read from it. -/
theorem ext_get? (h : ∀ id, m.get? id = m'.get? id) : m = m' := by
  obtain ⟨entries, hascending⟩ := m
  obtain ⟨entries', hascending'⟩ := m'
  obtain rfl : entries = entries' := eq_of_lookup hascending hascending' h
  rfl

/-- A map without the numbers at other ids. -/
def restrict (m : FeatureMap) (ids : List Int) : FeatureMap :=
  ⟨m.entries.filter fun e => e.1 ∈ ids, m.ascending.filter _⟩

theorem get?_restrict (m : FeatureMap) (ids : List Int) (id : Int) :
    (m.restrict ids).get? id = if id ∈ ids then m.get? id else none := by
  obtain ⟨entries, hascending⟩ := m
  show lookup id (entries.filter fun e => e.1 ∈ ids) = if id ∈ ids then lookup id entries else none
  clear hascending
  induction entries with
  | nil =>
    rw [List.filter_nil, lookup]
    split <;> rfl
  | cons head rest ih =>
    obtain ⟨k, x⟩ := head
    by_cases hk : k ∈ ids
    · rw [List.filter_cons, if_pos (decide_eq_true hk), lookup, lookup, ih]
      by_cases heq : id = k
      · rw [if_pos heq, if_pos heq, if_pos (heq ▸ hk)]
      · rw [if_neg heq, if_neg heq]
    · rw [List.filter_cons, if_neg (by rwa [decide_eq_true_iff]), lookup, ih]
      by_cases heq : id = k
      · rw [if_neg (heq ▸ hk), if_neg (heq ▸ hk)]
      · rw [if_neg heq]

theorem get?_foldl_of_not_mem (hid : id ∉ ids) :
    ((ids.zip xs).foldl (fun m (id, x) => m.insert id x) m).get? id = m.get? id := by
  induction ids generalizing m xs with
  | nil => rfl
  | cons k ids ih =>
    cases xs with
    | nil => rfl
    | cons x xs =>
      rw [List.zip_cons_cons, List.foldl_cons, ih (List.not_mem_of_not_mem_cons hid), get?_insert,
        if_neg (List.ne_of_not_mem_cons hid)]

/-- The map of distinct ids and their numbers. -/
theorem get?_ofList_zip_of_not_mem (hid : id ∉ ids) : (ofList (ids.zip xs)).get? id = none :=
  get?_foldl_of_not_mem hid

theorem get?_foldl_of_mem (hids : ids.Nodup) (h : (id, x) ∈ ids.zip xs) :
    ((ids.zip xs).foldl (fun m (id, x) => m.insert id x) m).get? id = some x := by
  induction ids generalizing m xs with
  | nil => cases h
  | cons k ids ih =>
    obtain ⟨hk, hids⟩ := List.nodup_cons.mp hids
    cases xs with
    | nil => cases h
    | cons y xs =>
      rw [List.zip_cons_cons] at h
      rw [List.zip_cons_cons, List.foldl_cons]
      rcases List.mem_cons.mp h with heq | h
      · cases heq
        rw [get?_foldl_of_not_mem hk, get?_insert, if_pos rfl]
      · exact ih hids h

theorem get?_ofList_zip (hids : ids.Nodup) (h : (id, x) ∈ ids.zip xs) :
    (ofList (ids.zip xs)).get? id = some x :=
  get?_foldl_of_mem hids h

end FeatureMap

/-! ## Reports -/

/-- The features of a state, each changed in its own place. -/
def StateVector.map (f : Float → Float) (s : StateVector) : StateVector where
  fastPathFrequency := f s.fastPathFrequency
  proposalSlowness := f s.proposalSlowness
  requestSize := f s.requestSize
  messagesPerSlot := f s.messagesPerSlot
  hasFastPath := f s.hasFastPath
  hasLeaderRotation := f s.hasLeaderRotation

namespace StateReport

/-- The numbers of a report: its features in column order, then the throughput. -/
def numbers (r : StateReport) : List Float :=
  r.state.toList ++ [r.reward]

/-- A report with the numbers that 32 bits keep. -/
def narrowed (r : StateReport) : StateReport :=
  ⟨r.state.map fun x => widen (narrow x), r.current, widen (narrow r.reward)⟩

theorem numbers_narrowed (r : StateReport) :
    r.narrowed.numbers = r.numbers.map fun x => widen (narrow x) := rfl

/-- Seven numbers are those of a report. -/
theorem exists_numbers {xs : List Float} (h : xs.length = 7) (p : Protocol) :
    ∃ r : StateReport, r.numbers = xs ∧ r.current = p := by
  match xs, h with
  | [a, b, c, d, e, f, g], _ => exact ⟨⟨⟨a, b, c, d, e, f⟩, p, g⟩, rfl, rfl⟩

end StateReport

namespace Message

variable {m m' : Message} {r : StateReport}

/-- The ids of the numbers of a report, in the order of these. -/
def reportIds : List Int := stateIds ++ [rewardId]

theorem reportIds_eq : reportIds = [0, 1, 2, 5, 3, 4, -1] := rfl

theorem nodup_reportIds : reportIds.Nodup := by decide

theorem mem_reportIds_iff {id : Int} : id ∈ reportIds ↔ id ∈ [0, 1, 2, 3, 4, 5, -1] := by
  simp only [reportIds_eq, List.mem_cons, List.not_mem_nil, or_false]
  omega

theorem number_eq_ok_iff {id : Int} {x : Float} :
    m.number id = .ok x ↔ ∃ y, m.features.get? id = some y ∧ widen y = x := by
  rw [number]
  cases m.features.get? id <;> simp

theorem protocol_eq_ok_iff {p : Protocol} :
    m.protocol = .ok p ↔ foldCase (trim m.nextProtocol.toList) = p.name.toList := by
  rw [← Protocol.read_eq_ok_iff, protocol]
  cases Protocol.read m.nextProtocol.toList <;> simp

/-- A message is a report if each number of the report stands at its id and the protocol is named. -/
theorem toReport_eq_ok_iff : m.toReport = .ok r ↔
    List.Forall₂ (fun id x => m.number id = .ok x) reportIds r.numbers ∧ m.protocol = .ok r.current := by
  obtain ⟨⟨a, b, c, d, e, f⟩, p, g⟩ := r
  simp only [reportIds_eq, StateReport.numbers, StateVector.toList, List.cons_append, List.nil_append,
    List.forall₂_cons, List.Forall₂.nil, and_true, toReport, bind_eq_ok_iff, pure, Except.pure,
    Except.ok.injEq, StateReport.mk.injEq, StateVector.mk.injEq, rewardId]
  constructor
  · rintro ⟨_, h0, _, h1, _, h2, _, h5, _, h3, _, h4, _, hreward, _, hprotocol,
      ⟨rfl, rfl, rfl, rfl, rfl, rfl⟩, rfl, rfl⟩
    exact ⟨⟨h0, h1, h2, h5, h3, h4, hreward⟩, hprotocol⟩
  · rintro ⟨⟨h0, h1, h2, h5, h3, h4, hreward⟩, hprotocol⟩
    exact ⟨_, h0, _, h1, _, h2, _, h5, _, h3, _, h4, _, hreward, _, hprotocol,
      ⟨rfl, rfl, rfl, rfl, rfl, rfl⟩, rfl, rfl⟩

/-- Only the numbers at the seven ids and the name of the protocol are looked at. -/
theorem toReport_congr (hnumbers : ∀ id ∈ reportIds, m.features.get? id = m'.features.get? id)
    (hprotocol : m.protocol = m'.protocol) : m.toReport = m'.toReport := by
  have hnumber : ∀ id ∈ reportIds, m.number id = m'.number id := by
    intro id hid
    rw [number, number, hnumbers id hid]
  simp only [reportIds_eq, List.forall_mem_cons] at hnumber
  obtain ⟨h0, h1, h2, h5, h3, h4, hreward, -⟩ := hnumber
  rw [toReport, toReport, h0, h1, h2, h5, h3, h4, rewardId, hreward, hprotocol]

/-- A report that is read does not depend on how the name of its protocol is written. -/
theorem toReport_eq_ok_of (hnumbers : ∀ id ∈ reportIds, m.features.get? id = m'.features.get? id)
    (htext : foldCase (trim m.nextProtocol.toList) = foldCase (trim m'.nextProtocol.toList))
    (h : m.toReport = .ok r) : m'.toReport = .ok r := by
  rw [toReport_eq_ok_iff, protocol_eq_ok_iff] at *
  refine ⟨?_, htext ▸ h.2⟩
  rw [List.forall₂_iff_zip] at *
  refine ⟨h.1.1, fun hx => ?_⟩
  have hnumber := h.1.2 hx
  rwa [number, hnumbers _ (List.of_mem_zip hx).1] at hnumber

/-- The numbers of a report are written at their ids. -/
theorem features_ofReport (r : StateReport) :
    (ofReport r).features = FeatureMap.ofList (reportIds.zip (r.numbers.map narrow)) := rfl

/-- The ids of a report are paired with its numbers. -/
theorem get?_ofReport {r : StateReport} {id : Int} {x : Float} (h : (id, x) ∈ reportIds.zip r.numbers) :
    (ofReport r).features.get? id = some (narrow x) := by
  rw [features_ofReport]
  refine FeatureMap.get?_ofList_zip nodup_reportIds ?_
  rw [List.zip_map_right]
  exact List.mem_map.mpr ⟨(id, x), h, rfl⟩

/-- Each id of a report has its number. -/
theorem exists_number (r : StateReport) {id : Int} (hid : id ∈ reportIds) :
    ∃ x, (id, x) ∈ reportIds.zip r.numbers := by
  have hlength : reportIds.length ≤ r.numbers.length := le_rfl
  rw [← List.map_fst_zip hlength] at hid
  obtain ⟨⟨_, x⟩, hx, rfl⟩ := List.mem_map.mp hid
  exact ⟨x, hx⟩

/-- A message is a report if the seven numbers are there and the name is that of a protocol. -/
theorem exists_toReport_iff : (∃ r, m.toReport = .ok r) ↔
    (∀ id ∈ reportIds, ∃ x, m.features.get? id = some x) ∧
      ∃ p : Protocol, foldCase (trim m.nextProtocol.toList) = p.name.toList := by
  constructor
  · rintro ⟨r, hr⟩
    obtain ⟨hnumbers, hprotocol⟩ := toReport_eq_ok_iff.mp hr
    refine ⟨fun id hid => ?_, r.current, protocol_eq_ok_iff.mp hprotocol⟩
    obtain ⟨x, hx⟩ := exists_number r hid
    obtain ⟨y, hy, -⟩ := number_eq_ok_iff.mp ((List.forall₂_iff_zip.mp hnumbers).2 hx)
    exact ⟨y, hy⟩
  · rintro ⟨hnumbers, p, hp⟩
    choose! y hy using hnumbers
    obtain ⟨r, hr, rfl⟩ := StateReport.exists_numbers
      (show (reportIds.map fun id => widen (y id)).length = 7 from rfl) p
    refine ⟨r, toReport_eq_ok_iff.mpr ⟨?_, protocol_eq_ok_iff.mpr hp⟩⟩
    rw [hr, List.forall₂_map_right_iff, List.forall₂_same]
    exact fun id hid => number_eq_ok_iff.mpr ⟨y id, hy id hid, rfl⟩

/-- A report is read back from its message with the numbers that 32 bits keep, each in its place. -/
theorem toReport_ofReport (r : StateReport) : (ofReport r).toReport = .ok r.narrowed := by
  refine toReport_eq_ok_iff.mpr ⟨?_, ?_⟩
  · rw [StateReport.numbers_narrowed, List.forall₂_map_right_iff, List.forall₂_iff_zip]
    exact ⟨rfl, fun h => number_eq_ok_iff.mpr ⟨_, get?_ofReport h, rfl⟩⟩
  · rw [protocol, ofReport, Protocol.read_name]
    rfl

/-- The message of a report that was read is what the message had of a report, with the name of the
protocol in the form in which it is written. -/
theorem ofReport_of_toReport (h : m.toReport = .ok r) :
    ofReport r = ⟨m.features.restrict reportIds, r.current.name⟩ := by
  obtain ⟨hnumbers, -⟩ := toReport_eq_ok_iff.mp h
  have hfeatures : (ofReport r).features = m.features.restrict reportIds := by
    refine FeatureMap.ext_get? fun id => ?_
    rw [FeatureMap.get?_restrict]
    by_cases hid : id ∈ reportIds
    · obtain ⟨x, hx⟩ := exists_number r hid
      obtain ⟨y, hy, rfl⟩ := number_eq_ok_iff.mp ((List.forall₂_iff_zip.mp hnumbers).2 hx)
      rw [if_pos hid, get?_ofReport hx, narrow_widen, hy]
    · rw [if_neg hid, features_ofReport, FeatureMap.get?_ofList_zip_of_not_mem hid]
  rw [← hfeatures]
  rfl

/-- A message is read as a report exactly if it has numbers at the seven ids and names a protocol, and
nothing else in it is looked at. A report is read back from its message with each number narrowed in its
place. A message that is read as a report has the numbers of that report, and without its other numbers
it is the message of the report, with the name as it is written. -/
theorem report_codec :
    (∀ m : Message, (∃ r, m.toReport = .ok r) ↔
      (∀ id ∈ [0, 1, 2, 3, 4, 5, -1], ∃ x, m.features.get? id = some x) ∧
        ∃ p : Protocol, foldCase (trim m.nextProtocol.toList) = p.name.toList) ∧
    (∀ m m' : Message,
      (∀ id ∈ [0, 1, 2, 3, 4, 5, -1], m.features.get? id = m'.features.get? id) →
      (m.nextProtocol = m'.nextProtocol → m.toReport = m'.toReport) ∧
      (foldCase (trim m.nextProtocol.toList) = foldCase (trim m'.nextProtocol.toList) →
        ∀ r, m.toReport = .ok r ↔ m'.toReport = .ok r)) ∧
    (∀ r : StateReport, (ofReport r).toReport = .ok r.narrowed) ∧
    ∀ (m : Message) (r : StateReport), m.toReport = .ok r →
      List.Forall₂ (fun id x => ∃ y, m.features.get? id = some y ∧ widen y = x) [0, 1, 2, 5, 3, 4, -1]
        (r.state.toList ++ [r.reward]) ∧
      foldCase (trim m.nextProtocol.toList) = r.current.name.toList ∧
      ofReport r = ⟨m.features.restrict [0, 1, 2, 3, 4, 5, -1], r.current.name⟩ := by
  simp only [← mem_reportIds_iff]
  refine ⟨fun m => exists_toReport_iff, fun m m' hnumbers => ⟨fun htext => ?_, fun htext r => ?_⟩,
    toReport_ofReport, fun m r hr => ⟨?_, ?_, ?_⟩⟩
  · refine toReport_congr hnumbers ?_
    rw [protocol, protocol, htext]
  · exact ⟨toReport_eq_ok_of hnumbers htext,
      toReport_eq_ok_of (fun id hid => (hnumbers id hid).symm) htext.symm⟩
  · exact (toReport_eq_ok_iff.mp hr).1.imp fun id x => number_eq_ok_iff.mp
  · exact protocol_eq_ok_iff.mp (toReport_eq_ok_iff.mp hr).2
  · rw [ofReport_of_toReport hr]
    congr 1
    refine FeatureMap.ext_get? fun id => ?_
    rw [FeatureMap.get?_restrict, FeatureMap.get?_restrict]
    simp only [mem_reportIds_iff]

/-- A message with a number too many and a name in capital letters. -/
def spareMessage : Message :=
  ⟨FeatureMap.ofList ([9, 5, 4, 3, 2, 1, 0, -1].map fun id => (id, Float32.ofBits 0x3F800000)), " PBFT "⟩

/-- The message is read as a report of the protocol, and the number too many makes no difference. -/
theorem report_codec_spareMessage : ∃ r, spareMessage.toReport = .ok r ∧
    ofReport r = ⟨spareMessage.features.restrict [0, 1, 2, 3, 4, 5, -1], "pbft"⟩ ∧
    toReport ⟨spareMessage.features.restrict [0, 1, 2, 3, 4, 5, -1], " Pbft"⟩ = .ok r := by
  obtain ⟨haccepts, hlooks, -, hwrites⟩ := report_codec
  have hname : foldCase (trim spareMessage.nextProtocol.toList) = "pbft".toList := by decide
  have hnumbers : ∀ id ∈ [0, 1, 2, 3, 4, 5, -1], (spareMessage.features.get? id).isSome = true := by
    decide +kernel
  obtain ⟨r, hr⟩ := (haccepts spareMessage).mpr
    ⟨fun id hid => Option.isSome_iff_exists.mp (hnumbers id hid), .pbft, hname⟩
  obtain ⟨-, hprotocol, hreport⟩ := hwrites spareMessage r hr
  rw [String.toList_inj.mp (hprotocol.symm.trans hname)] at hreport
  refine ⟨r, hr, hreport, ((hlooks spareMessage _ ?_).2 ?_ r).mp hr⟩
  · intro id hid
    rw [FeatureMap.get?_restrict, if_pos hid]
  · decide

end Message

end AdaptiveConsensus
