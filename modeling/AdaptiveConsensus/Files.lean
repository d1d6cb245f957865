import AdaptiveConsensus.Cause

/-!
# Files

What the agent sees of the file system (rl/snapshot.rs:97-139): names in a directory, and what they
stand for. A name is a row of bytes, which need not be a text.

* `FileName.text?_ofText`: the name that a text stands for has that text.
-/

namespace AdaptiveConsensus

/-- A text is read back from its bytes. -/
theorem fromUTF8?_toUTF8 (text : String) : String.fromUTF8? text.toUTF8 = some text := by
  have hvalid : text.toUTF8.IsValidUTF8 := text.isValidUTF8
  rw [String.fromUTF8?, dif_pos hvalid]
  rfl

/-- A name in a directory. -/
structure FileName where
  bytes : List UInt8
  deriving DecidableEq

namespace FileName

/-- The name that a text stands for. -/
def ofText (text : String) : FileName :=
  ⟨text.toUTF8.data.toList⟩

instance : Coe String FileName := ⟨ofText⟩

/-- The text of a name, if it is one. -/
def text? (name : FileName) : Option String :=
  String.fromUTF8? ⟨name.bytes.toArray⟩

/-- The ranges of the bytes that follow the first byte of a character. -/
def followers (first : UInt8) : List (UInt8 × UInt8) :=
  let any := (0x80, 0xBF)
  if 0xC2 ≤ first ∧ first ≤ 0xDF then [any]
  else if first = 0xE0 then [(0xA0, 0xBF), any]
  else if first = 0xED then [(0x80, 0x9F), any]
  else if 0xE1 ≤ first ∧ first ≤ 0xEF then [any, any]
  else if first = 0xF0 then [(0x90, 0xBF), any, any]
  else if first = 0xF4 then [(0x80, 0x8F), any, any]
  else if 0xF1 ≤ first ∧ first ≤ 0xF3 then [any, any, any]
  else []

/-- The bytes that lie in ranges, taken in turn, up to the first that does not. -/
def takeWithin : List (UInt8 × UInt8) → List UInt8 → List UInt8
  | (low, high) :: ranges, b :: rest => if low ≤ b ∧ b ≤ high then b :: takeWithin ranges rest else []
  | _, _ => []

/-- Bytes as a text, with a replacement character for each piece of a character that breaks off. -/
def replaceBroken : List UInt8 → List Char
  | [] => []
  | first :: rest =>
    let following := takeWithin (followers first) rest
    let shown := match String.fromUTF8? ⟨(first :: following).toArray⟩ with
      | some text => text.toList
      | none => ['\uFFFD']
    shown ++ replaceBroken (rest.drop following.length)
termination_by bytes => bytes.length
decreasing_by
  rw [List.length_drop, List.length_cons]
  exact Nat.lt_succ_of_le (Nat.sub_le ..)

/-- A name as it is shown. -/
def shown (name : FileName) : String :=
  match name.text? with
  | some text => text
  | none => String.ofList (replaceBroken name.bytes)

instance : Coe FileName String := ⟨shown⟩

/-- The name that a text stands for has that text. -/
theorem text?_ofText (text : String) : (ofText text).text? = some text := by
  rw [text?, ofText, Array.toArray_toList]
  exact fromUTF8?_toUTF8 text

end FileName

/-- What a name in a directory stands for. -/
inductive Content where
  | file (bytes : ByteArray)
  | directory
  /-- A file that cannot be read. -/
  | unreadable (cause : SystemError)

namespace Content

/-- The bytes of a file. -/
def bytes : Content → Except SystemError ByteArray
  | file bytes => .ok bytes
  | directory => .error .isDirectory
  | unreadable cause => .error cause

/-- The text that bytes are. -/
def textOfBytes (bytes : ByteArray) : Except SystemError String :=
  match String.fromUTF8? bytes with
  | some text => .ok text
  | none => .error .notText

/-- The text of a file. -/
def readText (c : Content) : Except SystemError String :=
  c.bytes.bind textOfBytes

/-- Whether a name stands for a directory. -/
def isDirectory : Content → Bool
  | directory => true
  | _ => false

end Content

/-- A name in a directory. -/
structure Entry where
  name : FileName
  content : Content

end AdaptiveConsensus
