import AdaptiveConsensus.Decimal.Whole
import AdaptiveConsensus.Files
import AdaptiveConsensus.Snapshot.Parse

/-!
# Snapshot directories

The history of a unit is read from a directory (rl/snapshot.rs:97-147): from every file whose name ends
in `.csv`, unless the name carries the number of another unit. Names begin with a time stamp, so that
reading the files in the order of their names replays the runs in the order in which they happened. A
file that cannot be read or is refused is passed over with a warning, and the others are read all the
same.
-/

namespace AdaptiveConsensus

open Decimal Text

/-- Why the entry of a directory gives no history. -/
inductive EntryError where
  | unreadable (path : String) (cause : SystemError)
  | refused (cause : SnapshotError)

instance : Cause EntryError where
  chain
    | .unreadable path cause => [s!"Failed to read {path}", cause.message]
    | .refused cause => Cause.chain cause

/-- A directory that cannot be listed. -/
structure ListingError where
  path : String
  cause : SystemError

instance : Cause ListingError where
  chain e := [s!"Failed to read snapshot directory {e.path}", e.cause.message]

namespace Snapshot

/-- The byte of a point. -/
def point : UInt8 := 46

/-- A file name without its extension, and the extension: what follows the last point, unless
nothing stands before it. -/
def splitExtension (name : FileName) : FileName × Option FileName :=
  match splitLast [point] name.bytes with
  | some ([], _) => (name, none)
  | some (stem, extension) => (⟨stem⟩, some ⟨extension⟩)
  | none => (name, none)

/-- The number of the unit that a file name carries: what follows the last blank and `u`, if it is a
32-bit number. A name that is no text carries none. -/
def unitSuffix (name : FileName) : Option UInt32 :=
  match (splitExtension name).1.text? with
  | none => none
  | some stem =>
    match splitLast [' ', 'u'] stem.toList with
    | some (_, digits) => readWord32 digits
    | none => none

/-- Whether a file name belongs to a snapshot that the unit reads. -/
def concerns (unit : UInt32) (name : FileName) : Bool :=
  (splitExtension name).2 == some (FileName.ofText "csv") &&
    match unitSuffix name with
    | some u => u == unit
    | none => true

/-- Whether a name comes first in the order of the bytes of names. -/
def nameLe (a b : Entry) : Bool :=
  !decide (b.name.bytes < a.name.bytes)

/-- The snapshots of a unit in replay order. -/
def filesFor (unit : UInt32) (entries : List Entry) : List Entry :=
  (entries.filter fun e => concerns unit e.name).mergeSort nameLe

end Snapshot

/-- A directory as the file system shows it: its path, and its entries in whatever order they are
listed, unless it cannot be listed. -/
structure Directory where
  path : String
  listing : Except SystemError (List Entry)

namespace Directory

/-- The path of an entry. -/
def pathOf (d : Directory) (e : Entry) : String :=
  s!"{d.path}/{e.name.shown}"

/-- The snapshots of a unit in replay order. -/
def snapshotFiles (d : Directory) (unit : UInt32) : Except ListingError (List Entry) :=
  match d.listing with
  | .error cause => .error ⟨d.path, cause⟩
  | .ok entries => .ok (Snapshot.filesFor unit entries)

/-- The history that an entry holds. -/
def readEntry (d : Directory) (e : Entry) : Except EntryError (List HistoryRow) :=
  match e.content.readText with
  | .error cause => .error (.unreadable (d.pathOf e) cause)
  | .ok text =>
    match Snapshot.parse text.toList with
    | .error cause => .error (.refused cause)
    | .ok rows => .ok rows

end Directory

/-- A history as it was loaded, with the warnings given on the way. -/
structure LoadedHistory where
  rows : List HistoryRow
  warnings : List String

namespace Directory

/-- The warning for an entry that is passed over. -/
def skipWarning (d : Directory) (e : Entry) (cause : EntryError) : String :=
  s!"Skipping snapshot {d.pathOf e}: {Cause.message cause}"

/-- The histories of entries in turn. -/
def readEntries (d : Directory) : List Entry → LoadedHistory
  | [] => ⟨[], []⟩
  | e :: rest =>
    let others := d.readEntries rest
    match d.readEntry e with
    | .ok rows => ⟨rows ++ others.rows, others.warnings⟩
    | .error cause => ⟨others.rows, d.skipWarning e cause :: others.warnings⟩

/-- The history of a unit. A directory that cannot be listed holds none. -/
def loadSnapshots (d : Directory) (unit : UInt32) : LoadedHistory :=
  match d.snapshotFiles unit with
  | .error e => ⟨[], [s!"{Cause.message e}. Starting with an empty history."]⟩
  | .ok files => d.readEntries files

end Directory

end AdaptiveConsensus
