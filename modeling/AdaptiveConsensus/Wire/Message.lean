import AdaptiveConsensus.Cause
import AdaptiveConsensus.Decimal.Layout
import AdaptiveConsensus.Decimal.Whole
import AdaptiveConsensus.Decimal.Width
import AdaptiveConsensus.Directive
import AdaptiveConsensus.Json.Value
import AdaptiveConsensus.Power
import AdaptiveConsensus.State
import AdaptiveConsensus.Wire.FeatureMap

/-!
# Messages

One type of message goes both ways over the link, one to a line (comm/wire.rs:10-101). A report carries
numbers by feature id and the name of the protocol that produced them; a decision carries only the name
of the directive. A message is an object of two fields, or an array of their values in order; what is
missing is empty.
-/

namespace AdaptiveConsensus

open Decimal Json

/-- A message. -/
structure Message where
  features : FeatureMap
  nextProtocol : String
  deriving DecidableEq

namespace Message

/-! ## Reports and decisions -/

/-- The feature ids of a state in column order. The ids were given out before the number of messages
per slot was measured, so that its id is out of order. -/
def stateIds : List Int := [0, 1, 2, 5, 3, 4]

/-- The id of the throughput. -/
def rewardId : Int := -1

/-- The message that reports an episode. Numbers are narrowed to 32 bits. -/
def ofReport (r : StateReport) : Message where
  features := (FeatureMap.ofList (stateIds.zip (r.state.toList.map narrow))).insert rewardId
    (narrow r.reward)
  nextProtocol := r.current.name

/-- The message that carries a directive. -/
def ofDirective (d : Directive) : Message := ⟨FeatureMap.empty, d.name⟩

/-- Why a message is no report. -/
inductive ReportError where
  | missing (id : Int)
  | unknownProtocol (cause : UnknownProtocol)
  deriving DecidableEq, Repr

instance : Cause ReportError where
  chain
    | .missing id => [s!"Report is missing feature {id}"]
    | .unknownProtocol cause => [s!"Report names unknown protocol '{cause.text}'", cause.message]

/-- The number at a feature id. -/
def number (m : Message) (id : Int) : Except ReportError Float :=
  match m.features.get? id with
  | some x => .ok (widen x)
  | none => .error (.missing id)

/-- The protocol that a message names. -/
def protocol (m : Message) : Except ReportError Protocol :=
  match Protocol.read m.nextProtocol.toList with
  | .ok p => .ok p
  | .error cause => .error (.unknownProtocol cause)

/-- The report that a message is. Numbers are looked for in column order, then the throughput, then
the protocol. -/
def toReport (m : Message) : Except ReportError StateReport := do
  let state : StateVector := {
    fastPathFrequency := ← m.number 0
    proposalSlowness := ← m.number 1
    requestSize := ← m.number 2
    messagesPerSlot := ← m.number 5
    hasFastPath := ← m.number 3
    hasLeaderRotation := ← m.number 4 }
  let reward ← m.number rewardId
  let current ← m.protocol
  return ⟨state, current, reward⟩

/-! ## Writing -/

/-- A whole number as text. -/
def idText (id : Int) : List Char :=
  signed (id < 0) (natText id.natAbs)

/-- A field of an object. -/
def fieldText (key value : List Char) : List Char :=
  quote key ++ ':' :: value

/-- An object of fields. -/
def objectText (fields : List (List Char)) : List Char :=
  '\x7b' :: ([','].intercalate fields ++ ['\x7d'])

/-- The line of a message, without its end. -/
def line (m : Message) : List Char :=
  objectText
    [fieldText "report".toList
      (objectText (m.features.entries.map fun (id, x) => fieldText (idText id) (json32 x))),
     fieldText "next_protocol".toList (quote m.nextProtocol.toList)]

/-! ## Reading -/

/-- A feature id: a whole number of the 32-bit range, written as a number of the format. -/
def readId? (key : Quoted) : Option Int := do
  let n ← Numeral.ofText? (← key.asWritten?)
  let id ← n.toWhole?
  if -(twoTo 31 : Int) ≤ id ∧ id < twoTo 31 then some id else none

/-- The map with the field of an object. -/
def addFeature? (m : FeatureMap) : Quoted × Value → Option FeatureMap
  | (key, .number n) => do
    let id ← readId? key
    let x ← n.toFloat32?
    return m.insert id x
  | _ => none

/-- The numbers that a value tells. -/
def readFeatures? : Value → Option FeatureMap
  | .object fields => fields.foldlM addFeature? FeatureMap.empty
  | _ => none

/-- The text that a value is. -/
def readText? : Value → Option String
  | .string s => s.decode?.map String.ofList
  | _ => none

/-- The fields of a message read so far. -/
structure Draft where
  features : Option FeatureMap
  nextProtocol : Option String

namespace Draft

/-- The draft with one more field. A field of another name is passed over; the two known ones are
not given twice. -/
def add? (d : Draft) : Quoted × Value → Option Draft
  | (key, value) => do
    let name ← key.decode?
    if name = "report".toList then
      if d.features.isSome then none
      else return { d with features := some (← readFeatures? value) }
    else if name = "next_protocol".toList then
      if d.nextProtocol.isSome then none
      else return { d with nextProtocol := some (← readText? value) }
    else return d

/-- The message of a draft. -/
def complete (d : Draft) : Message :=
  ⟨d.features.getD FeatureMap.empty, d.nextProtocol.getD ""⟩

end Draft

/-- The message that a value is. -/
def ofValue? : Value → Option Message
  | .object fields => (fields.foldlM Draft.add? ⟨none, none⟩).map Draft.complete
  | .array [] => some ⟨FeatureMap.empty, ""⟩
  | .array [features] => (readFeatures? features).map fun m => ⟨m, ""⟩
  | .array [features, next] => do return ⟨← readFeatures? features, ← readText? next⟩
  | _ => none

/-- The message that a line is. -/
def decode? (text : List Char) : Option Message :=
  (Value.parse? text).bind ofValue?

end Message

end AdaptiveConsensus
