import Mathlib
import AdaptiveConsensus.Proofs.Experience.Filing
import AdaptiveConsensus.Snapshot.Report
import AdaptiveConsensus.Strategy.Quadratic

/-!
# The report and the buckets

The bucket report counts rows file by file as it reads them; the pairwise strategies load the whole
history first and file it row by row. Both are folds over the same rows, and a row does to the
report's cells what it does to the buckets.

- `BucketReport.Tells.addRow`: a row keeps report and buckets in step.
- `BucketReport.Tells.addFiles`: so do files; one that is passed over leaves no trace on either side.
- `report_tells_buckets`: the report tells the counts and the sums of targets of the buckets.
-/

namespace AdaptiveConsensus

namespace Indexed

variable {κ : Type} [Indexed κ]

theorem nodup_keys : (keys κ).Nodup := by
  refine List.Nodup.map ?_ (List.nodup_finRange _)
  intro i j h
  rw [← index_ofIndex i, h, index_ofIndex]

end Indexed

namespace Table

variable {κ : Type} [Indexed κ] [DecidableEq κ] {α : Type}

/-- A change that adds one to the measure of an entry adds one to the measure of the table. -/
theorem sum_modify (measure : α → Nat) (t : Table κ α) (k : κ) (f : α → α)
    (hf : measure (f (t.get k)) = measure (t.get k) + 1) :
    ((Indexed.keys κ).map fun j => measure ((t.modify k f).get j)).sum =
      ((Indexed.keys κ).map fun j => measure (t.get j)).sum + 1 := by
  have hentry : ∀ j, measure ((t.modify k f).get j) = measure (t.get j) + if j = k then 1 else 0 := by
    intro j
    by_cases hj : j = k
    · subst hj
      simp [hf]
    · simp [get_modify_ne t f hj, hj]
  have hone : ((Indexed.keys κ).map fun j => if j = k then 1 else 0).sum = 1 := by
    rw [List.sum_map_eq_nsmul_single k _ fun j hj _ => if_neg hj,
      List.count_eq_one_of_mem Indexed.nodup_keys (Indexed.mem_keys k)]
    simp
  simp only [hentry, List.sum_map_add, hone]

end Table

namespace Store

/-- A history record comes last among the targets. -/
@[simp] theorem rewards_append (s : Store) (x : Features) (y : Float) :
    (s.append x y).rewards = s.rewards ++ [y] :=
  rfl

end Store

namespace BucketReport

variable {L : Learner}

/-- The cells of a report tell of each bucket how many records it holds, and the sum of their targets
in the order in which they came. -/
structure Tells (r : BucketReport) (b : Buckets (Protocol × Protocol) L) : Prop where
  count : ∀ k, (r.cells.get k).count = (b.get k).count
  rewardSum : ∀ k, (r.cells.get k).rewardSum = (b.get k).store.rewards.foldl (· + ·) 0.0

theorem tells_empty : Tells empty (Buckets.empty : Buckets (Protocol × Protocol) L) := by
  constructor <;> intro k <;> simp only [empty, Buckets.empty, Table.get_ofFn] <;> rfl

/-- A row does to the cells of a report what it does to the buckets. -/
theorem Tells.addRow {r : BucketReport} {b : Buckets (Protocol × Protocol) L} (h : Tells r b)
    (row : HistoryRow) : Tells (r.addRow row) (pairFiling.seedRow b row) := by
  constructor
  · intro k
    by_cases hk : k = (row.previous, row.action)
    · subst hk
      simp [BucketReport.addRow, Filing.seedRow, pairFiling, BucketSummary.add, h.count,
        Bucket.mapStore, Bucket.count, Store.count]
    · simp [BucketReport.addRow, Filing.seedRow, pairFiling, Table.get_modify_ne _ _ hk, h.count]
  · intro k
    by_cases hk : k = (row.previous, row.action)
    · subst hk
      simp [BucketReport.addRow, Filing.seedRow, pairFiling, BucketSummary.add, h.rewardSum,
        Bucket.mapStore]
    · simp [BucketReport.addRow, Filing.seedRow, pairFiling, Table.get_modify_ne _ _ hk, h.rewardSum]

theorem Tells.addRows {r : BucketReport} {b : Buckets (Protocol × Protocol) L} (h : Tells r b)
    (rows : List HistoryRow) : Tells (rows.foldl BucketReport.addRow r) (pairFiling.seed b rows) := by
  induction rows generalizing r b with
  | nil => exact h
  | cons row rest ih => exact ih (h.addRow row)

/-- Files do to the cells of a report what the history that they hold does to the buckets. A file that
is passed over does nothing to either. -/
theorem Tells.addFiles {r : BucketReport} {b : Buckets (Protocol × Protocol) L} (h : Tells r b)
    (d : Directory) (files : List Entry) :
    Tells (files.foldl (addFile d) r) (pairFiling.seed b (d.readEntries files).rows) := by
  induction files generalizing r b with
  | nil => exact h
  | cons e rest ih =>
    rw [List.foldl_cons, addFile, Directory.readEntries]
    cases d.readEntry e with
    | error cause => exact ih h
    | ok rows =>
      -- the rows of a file are counted before they are filed, which the cells do not see
      have hcounted : Tells { r with totalRows := r.totalRows + rows.length } b :=
        ⟨h.count, h.rewardSum⟩
      have hrest := ih (hcounted.addRows rows)
      rwa [Filing.seed, Filing.seed, ← List.foldl_append] at hrest

/-! ## How many rows there are -/

/-- The number of records that the cells of a report count. -/
def records (r : BucketReport) : Nat :=
  ((Indexed.keys (Protocol × Protocol)).map fun k => (r.cells.get k).count).sum

theorem records_empty : empty.records = 0 := by
  simp [records, empty]

theorem records_addRow (r : BucketReport) (row : HistoryRow) :
    (r.addRow row).records = r.records + 1 :=
  Table.sum_modify BucketSummary.count r.cells (row.previous, row.action)
    (fun cell => cell.add row.throughput) rfl

theorem addRows_size (r : BucketReport) (rows : List HistoryRow) :
    (rows.foldl addRow r).records = r.records + rows.length ∧
      (rows.foldl addRow r).totalRows = r.totalRows := by
  induction rows generalizing r with
  | nil => simp
  | cons row rest ih =>
    obtain ⟨hrecords, htotal⟩ := ih (r.addRow row)
    rw [List.foldl_cons, hrecords, htotal, records_addRow, List.length_cons]
    exact ⟨by omega, rfl⟩

/-- Both numbers grow by the rows of the history that the files hold. -/
theorem addFiles_size (d : Directory) (r : BucketReport) (files : List Entry) :
    (files.foldl (addFile d) r).records = r.records + (d.readEntries files).rows.length ∧
      (files.foldl (addFile d) r).totalRows = r.totalRows + (d.readEntries files).rows.length := by
  induction files generalizing r with
  | nil => simp [Directory.readEntries]
  | cons e rest ih =>
    obtain ⟨hrecords, htotal⟩ := ih (addFile d r e)
    rw [List.foldl_cons, hrecords, htotal, addFile, Directory.readEntries]
    cases d.readEntry e with
    | error cause => exact ⟨rfl, rfl⟩
    | ok rows =>
      obtain ⟨hfile, htold⟩ := addRows_size { r with totalRows := r.totalRows + rows.length } rows
      have hcounted : ({ r with totalRows := r.totalRows + rows.length } : BucketReport).records =
          r.records := rfl
      dsimp only
      rw [hfile, htold, hcounted, List.length_append]
      exact ⟨by omega, Nat.add_assoc _ _ _⟩

end BucketReport

/-- The report on a directory that can be listed tells of each pair how many records the pairwise
buckets hold when they are filled from the history that the directory holds, and the sum of their
targets from the first record to the last. It tells of as many rows as the history has, and of as many
as its cells count. -/
theorem report_tells_buckets (L : Learner) (path : String) (entries : List Entry) (unit : UInt32) :
    let d : Directory := ⟨path, .ok entries⟩
    let history := (d.loadSnapshots unit).rows
    let buckets : Buckets (Protocol × Protocol) L := pairFiling.seed Buckets.empty history
    ∃ r, BucketReport.ofDirectory d unit = .ok r ∧
      (∀ k, (r.cells.get k).count = (buckets.get k).count) ∧
      (∀ k, (r.cells.get k).rewardSum = (buckets.get k).store.rewards.foldl (· + ·) 0.0) ∧
      r.totalRows = history.length ∧
      r.totalRows = ((Indexed.keys (Protocol × Protocol)).map fun k => (r.cells.get k).count).sum := by
  intro d history buckets
  have htells : BucketReport.Tells _ buckets :=
    BucketReport.tells_empty.addFiles d (Snapshot.filesFor unit entries)
  obtain ⟨hrecords, htotal⟩ :=
    BucketReport.addFiles_size d BucketReport.empty (Snapshot.filesFor unit entries)
  rw [BucketReport.records_empty, Nat.zero_add] at hrecords
  rw [show BucketReport.empty.totalRows = 0 from rfl, Nat.zero_add] at htotal
  exact ⟨_, rfl, htells.count, htells.rewardSum, htotal, htotal.trans hrecords.symm⟩

end AdaptiveConsensus
