/-!
# Buffered devices

The training log is written through a buffer of a fixed size (utils/training_log.rs:77, 97-103). A piece
that does not fit makes the buffer be written out first; a piece as large as the whole buffer goes
straight through. The device underneath may refuse any write: which ones it refuses is part of its
description, so that a statement can quantify over all ways to fail.
-/

namespace AdaptiveConsensus

/-- A device that text is written to: what it holds, how often it was written to, and which writes
it refuses. -/
structure Device where
  content : String
  writes : Nat
  refuses : Nat → Option String

namespace Device

/-- An empty device that accepts everything. -/
def reliable : Device := ⟨"", 0, fun _ => none⟩

/-- An empty device that refuses every write. -/
def broken (reason : String) : Device := ⟨"", 0, fun _ => some reason⟩

/-- Writes a piece, or gives the reason for which the device refused it. -/
def write (d : Device) (piece : String) : Device × Option String :=
  match d.refuses d.writes with
  | some reason => ({ d with writes := d.writes + 1 }, some reason)
  | none => ({ d with writes := d.writes + 1, content := d.content ++ piece }, none)

end Device

/-- A device behind a buffer. -/
structure BufferedDevice where
  buffer : String
  device : Device

namespace BufferedDevice

/-- How many bytes the buffer holds. -/
def capacity : Nat := 8192

/-- A device behind an empty buffer. -/
def ofDevice (d : Device) : BufferedDevice := ⟨"", d⟩

/-- Writes the buffer out. A refused buffer stays; an empty one is not written. -/
def flush (b : BufferedDevice) : BufferedDevice × Option String :=
  if b.buffer.isEmpty then (b, none)
  else match b.device.write b.buffer with
    | (device, some reason) => ({ b with device := device }, some reason)
    | (device, none) => (⟨"", device⟩, none)

/-- Makes room for a piece. -/
def makeRoom (b : BufferedDevice) (piece : String) : BufferedDevice × Option String :=
  if capacity < b.buffer.utf8ByteSize + piece.utf8ByteSize then b.flush else (b, none)

/-- Takes a piece. -/
def put (b : BufferedDevice) (piece : String) : BufferedDevice × Option String :=
  match b.makeRoom piece with
  | (b, some reason) => (b, some reason)
  | (b, none) =>
    if capacity ≤ piece.utf8ByteSize then
      let (device, refused) := b.device.write piece
      ({ b with device := device }, refused)
    else ({ b with buffer := b.buffer ++ piece }, none)

/-- Takes a line and its line feed. -/
def putLine (b : BufferedDevice) (line : String) : BufferedDevice × Option String :=
  match b.put line with
  | (b, some reason) => (b, some reason)
  | (b, none) => b.put "\n"

end BufferedDevice

end AdaptiveConsensus
