import AdaptiveConsensus.Decimal.Whole
import AdaptiveConsensus.TrainingLog.Device
import AdaptiveConsensus.TrainingLog.Row

/-!
# The training log

One log per run, named by its time of creation and by the unit it serves (utils/training_log.rs:76-124).
It begins with a header and takes one row per resolved decision, in the format of a snapshot file, so
that the log of a finished run is the history of a later one.
-/

namespace AdaptiveConsensus

open Decimal

/-- A moment to the second. -/
structure Timestamp where
  year : Nat
  month : Nat
  day : Nat
  hour : Nat
  minute : Nat
  second : Nat
  deriving DecidableEq, Repr

namespace Timestamp

/-- A number with leading zeros up to a width. -/
def padded (width n : Nat) : List Char :=
  let digits := natText n
  zeros (width - digits.length) ++ digits

/-- The text of a moment, year first. -/
def text (t : Timestamp) : List Char :=
  padded 4 t.year ++ '-' :: padded 2 t.month ++ '-' :: padded 2 t.day ++
    ' ' :: padded 2 t.hour ++ ':' :: padded 2 t.minute ++ ':' :: padded 2 t.second

end Timestamp

/-- Why the log could not be written. -/
inductive LogError where
  | directory (path : String) (cause : SystemError)
  | file (path : String) (cause : SystemError)
  | header (reason : String)
  | row (reason : String)
  | flush (reason : String)
  deriving DecidableEq, Repr

instance : Cause LogError where
  chain
    | .directory path cause => [s!"Failed to create data directory {path}", cause.message]
    | .file path cause => [s!"Failed to create training log {path}", cause.message]
    | .header reason => ["Failed to write training log header", reason]
    | .row reason => ["Failed to write training row", reason]
    | .flush reason => ["Failed to flush training log", reason]

/-- A log: the buffered device it is written to, the number of rows written, and its file name if it
is a file. -/
structure TrainingLog where
  out : BufferedDevice
  rows : Nat
  name : Option String

namespace TrainingLog

/-- The name of the file that holds the log of a unit. -/
def fileName (stamp : Timestamp) (unit : UInt32) : String :=
  String.ofList (stamp.text ++ [' ', 'u'] ++ natText unit.toNat ++ ['.', 'c', 's', 'v'])

/-- A log on a device, begun with the header. -/
def onDevice (device : Device) : Except LogError TrainingLog :=
  match (BufferedDevice.ofDevice device).putLine (String.ofList TrainingRow.header) with
  | (_, some reason) => .error (.header reason)
  | (out, none) => .ok ⟨out, 0, none⟩

/-- A log in a file of a directory. Whether the directory and the file can be made is for the file
system to say. -/
def create (directory : String) (stamp : Timestamp) (unit : UInt32)
    (makeDirectory : Except SystemError Unit) (makeFile : Except SystemError Device) :
    Except LogError TrainingLog :=
  match makeDirectory with
  | .error cause => .error (.directory directory cause)
  | .ok () =>
    let name := fileName stamp unit
    match makeFile with
    | .error cause => .error (.file s!"{directory}/{name}" cause)
    | .ok device => (onDevice device).map fun log => { log with name := some name }

/-- Writes a row. -/
def writeRow (log : TrainingLog) (row : TrainingRow) : TrainingLog × Except LogError Unit :=
  match log.out.putLine (String.ofList row.toLine) with
  | (out, some reason) => ({ log with out := out }, .error (.row reason))
  | (out, none) => ({ log with out := out, rows := log.rows + 1 }, .ok ())

/-- Writes out what the buffer holds. -/
def flush (log : TrainingLog) : TrainingLog × Except LogError Unit :=
  match log.out.flush with
  | (out, some reason) => ({ log with out := out }, .error (.flush reason))
  | (out, none) => ({ log with out := out }, .ok ())

/-- What has reached the device. -/
def content (log : TrainingLog) : String :=
  log.out.device.content

/-- What has reached the device since the device was emptied last, and the log with an empty device. -/
def drain (log : TrainingLog) : String × TrainingLog :=
  (log.content, { log with out := { log.out with device := { log.out.device with content := "" } } })

/-- The log as it is left behind: the buffer is written out if the device takes it. -/
def close (log : TrainingLog) : TrainingLog :=
  log.flush.1

end TrainingLog

end AdaptiveConsensus
