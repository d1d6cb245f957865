import AdaptiveConsensus.Learner

/-!
# Columns and their order

A forest looks at its training rows (rl/bucket.rs:65, 90) column by column, and at each column in
ascending order. Equal entries are ordered by the sorting network itself, and the order of equal entries
decides the order of later additions, so the sort is fixed: a quicksort that splits at the median of
three entries and leaves ranges of fewer than eight entries to insertion.

An entry that is no number is neither below nor above any other, so that it does not stop a scan.
Short ranges are sorted all the same. In a longer one a scan may run past the end of the range,
which is a fault.
-/

namespace AdaptiveConsensus.Forest

/-- A matrix kept by columns. -/
structure Columns where
  rows : Nat
  columns : Array (Array Float)

/-- The columns of a list of rows. The first row sets the width; what a longer row holds beyond it
is not used. -/
def Columns.ofRows (rows : List Features) : Except LearnerError Columns :=
  match rows with
  | [] => .error .noRows
  | first :: _ =>
    -- a row that is too short is noticed at its first missing column
    let shortest := rows.foldl (fun n row => min n row.length) first.length
    if shortest < first.length then .error (.outOfRange shortest shortest)
    else
      let packed := rows.map List.toArray
      .ok ⟨rows.length, (Array.range first.length).map fun column =>
        (packed.map fun row => row.getD column 0.0).toArray⟩

/-- The entry of a row in a column. -/
def Columns.entry (m : Columns) (row column : Nat) : Float :=
  (m.columns.getD column #[]).getD row 0.0

/-- The entries of a column that is being sorted, each with its row. -/
abbrev Entries := Array (Float × Nat)

namespace Entries

/-- The entry at a position. -/
def key (a : Entries) (i : Nat) : Float :=
  (a.getD i (0.0, 0)).1

/-- Moves the entry at `i` down past entries that are not at most as large, no further than `low`. -/
def sink (low : Nat) : Nat → Entries → Entries
  | 0, a => a
  | i + 1, a =>
    if i < low then a
    else if a.key i ≤ a.key (i + 1) then a
    else sink low i (a.swapIfInBounds i (i + 1))

/-- Sorts the `count` entries after the one at `low` into their places, from position `next` on. -/
def insertion (low : Nat) : Nat → Nat → Entries → Entries
  | 0, _, a => a
  | count + 1, next, a => insertion low count (next + 1) (sink low next a)

/-- Exchanges two entries if the first is the larger. -/
def exchange (a : Entries) (i j : Nat) : Entries :=
  if a.key j < a.key i then a.swapIfInBounds i j else a

/-- The first position after `i` whose entry is at least `pivot`. -/
def scanUp (pivot : Float) (a : Entries) (i : Nat) : Except LearnerError Nat :=
  if i + 1 < a.size then
    if pivot ≤ a.key (i + 1) then .ok (i + 1) else scanUp pivot a (i + 1)
  else .error (.outOfRange a.size (i + 1))
  termination_by a.size - i

/-- The last position before `j` whose entry is at most `pivot`. -/
def scanDown (pivot : Float) (a : Entries) : Nat → Except LearnerError Nat
  | 0 => .error .belowZero
  | j + 1 => if a.key j ≤ pivot then .ok j else scanDown pivot a j

/-- Exchanges entries on the wrong side of the pivot until the scans from both ends have met. -/
def partitionRange (pivot : Float) : Nat → Nat → Nat → Entries →
    Except LearnerError (Nat × Nat × Entries)
  | 0, i, j, a => .ok (i, j, a)
  | steps + 1, i, j, a => do
    let i ← scanUp pivot a i
    let j ← scanDown pivot a j
    if j < i then .ok (i, j, a)
    else partitionRange pivot steps i j (a.swapIfInBounds i j)

/-- Sorts the ranges that wait on the stack, the topmost first. Each step splits a range at its
pivot or finishes it, so that twice as many steps as there are entries are enough. -/
def sortRanges : Nat → List (Nat × Nat) → Entries → Except LearnerError Entries
  | 0, _, a => .ok a
  | _, [], a => .ok a
  | steps + 1, (low, high) :: waiting, a =>
    if high < low + 7 then sortRanges steps waiting (insertion low (high - low) (low + 1) a)
    else do
      -- brings the median of three entries next to the lower end, where it is the pivot
      let a := a.swapIfInBounds ((low + high) / 2) (low + 1)
      let a := exchange a low high
      let a := exchange a (low + 1) high
      let a := exchange a low (low + 1)
      let pivot := a.key (low + 1)
      let (i, j, a) ← partitionRange pivot a.size (low + 1) high a
      let a := a.swapIfInBounds (low + 1) j
      -- the length of the upper part would be less than zero
      if high < i then .error .belowZero
      -- the shorter part goes first
      else if j + i ≤ high + low + 1 then sortRanges steps ((low, j - 1) :: (i, high) :: waiting) a
      else sortRanges steps ((i, high) :: (low, j - 1) :: waiting) a

end Entries

/-- The rows in ascending order of a column's entries. -/
def ascending (column : Array Float) : Except LearnerError (Array Nat) := do
  let entries : Entries := column.mapIdx fun row x => (x, row)
  let sorted ← Entries.sortRanges (4 * entries.size + 1) [(0, entries.size - 1)] entries
  return sorted.map Prod.snd

end AdaptiveConsensus.Forest
