import AdaptiveConsensus.Text.Blank

/-!
# Lines, cells and letter case

Files are cut into lines and lines into cells (rl/snapshot.rs:38, 58, 84). Both cuts are one function,
`splitOn`, which keeps every character but the separators.
-/

namespace AdaptiveConsensus.Text

/-- The pieces between the separators: one more than there are separators, some perhaps empty. -/
def splitOn {α : Type} [DecidableEq α] (separator : α) (text : List α) : List (List α) :=
  text.foldr
    (fun c pieces =>
      if c = separator then [] :: pieces
      else match pieces with
        | [] => [[c]]
        | piece :: rest => (c :: piece) :: rest)
    [[]]

section

variable {α : Type} [DecidableEq α]

@[simp] theorem splitOn_nil (separator : α) : splitOn separator [] = [[]] := rfl

theorem splitOn_cons (separator c : α) (text : List α) :
    splitOn separator (c :: text) =
      if c = separator then [] :: splitOn separator text
      else match splitOn separator text with
        | [] => [[c]]
        | piece :: rest => (c :: piece) :: rest := rfl

theorem splitOn_ne_nil (separator : α) (text : List α) : splitOn separator text ≠ [] := by
  cases text with
  | nil => simp
  | cons c text =>
    rw [splitOn_cons]
    split
    · simp
    · split <;> simp

end

/-- The cells of a row: what stands between its commas. -/
def cells (row : List Char) : List (List Char) :=
  splitOn ',' row

/-- The cells of a row, each without the blanks around it. -/
def trimmedCells (row : List Char) : List (List Char) :=
  (cells row).map trim

/-- A line without one mark that it may end with. -/
def dropMark {α : Type} [DecidableEq α] (mark : α) (line : List α) : List α :=
  if line.getLast? = some mark then line.dropLast else line

/-- Lines from the pieces between line ends. A line that was ended also loses one carriage return
before the end; what follows the last end is a line only if it is not empty, and keeps it. -/
def linesOfPieces {α : Type} [DecidableEq α] (carriageReturn : α) : List (List α) → List (List α)
  | [] => []
  | [last] => if last.isEmpty then [] else [last]
  | piece :: next :: rest =>
    dropMark carriageReturn piece :: linesOfPieces carriageReturn (next :: rest)

/-- The lines of a text. A line ends with a line feed or with carriage return and line feed; a
carriage return alone ends none. -/
def lines (text : List Char) : List (List Char) :=
  linesOfPieces '\r' (splitOn '\n' text)

/-- The lines of a file, by the same rule. -/
def byteLines (bytes : List UInt8) : List (List UInt8) :=
  linesOfPieces 13 (splitOn 10 bytes)

/-- The first line of what has been read so far of a file, if its end was read, and what follows. -/
def firstLine? (bytes : List UInt8) : Option (List UInt8 × List UInt8) :=
  match bytes.dropWhile (· ≠ 10) with
  | [] => none
  | _ :: rest => some (dropMark 13 (bytes.takeWhile (· ≠ 10)), rest)

/-- The lines that hold more than blanks. -/
def contentLines (text : List Char) : List (List Char) :=
  (lines text).filter fun line => !isBlankLine line

/-- The text with the letters A to Z in lower case; no other letter changes. -/
def foldCase (text : List Char) : List Char :=
  text.map Char.toLower

/-- What stands before and after the last occurrence of a non-empty mark, if there is one. -/
def splitLast {α : Type} [DecidableEq α] (mark : List α) : List α → Option (List α × List α)
  | [] => none
  | c :: rest =>
    match splitLast mark rest with
    | some (before, after) => some (c :: before, after)
    | none => if mark.isPrefixOf (c :: rest) then some ([], (c :: rest).drop mark.length) else none

end AdaptiveConsensus.Text
