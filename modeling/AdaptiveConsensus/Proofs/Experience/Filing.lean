import AdaptiveConsensus.Proofs.Experience.Store
import AdaptiveConsensus.Strategy.Filing

/-!
# What filed buckets hold

A filing rule sends history rows, decisions and rewards to buckets. `Filing.Accounts` says what the
buckets hold after any mixture of them: under every key exactly the records of the resolved rows of
that key, in order, and behind them the rows of the decisions that still wait, in order. A resolved
decision is a history row: its throughput is all that sets it apart from a waiting one.

- `Filing.accounts_seed`: seeding files the history and nothing else.
- `Filing.Accounts.recordDecision`: a decision waits at the end.
- `Filing.Accounts.labels`, `Filing.Accounts.refuses`: a throughput turns the oldest waiting decision
  of its key into the last resolved row, and is refused if none waits. No other bucket is touched,
  however many keys are in flight.
- `Filing.Accounts.recordReward`: the case in which that decision is the oldest of all.
- `Filing.Accounts.latest?_eq`: what the log is shown for a pair is the last resolved row of its key.
- `Filing.Accounts.count_eq_zero`: a bucket is without records exactly if no row has its key.
- `Buckets.SameStores`: training changes models, never stores, so that it keeps every account.
-/

namespace AdaptiveConsensus

/-- A decision as it is filed: the state it was taken on, the protocol that ran and the one chosen. -/
structure FiledDecision where
  state : StateVector
  previous : Protocol
  chosen : Protocol

/-- The history row that a decision becomes with its throughput. -/
def FiledDecision.resolved (d : FiledDecision) (raw : Float) : HistoryRow :=
  ⟨d.state, d.previous, d.chosen, raw⟩

namespace Bucket

open AdaptiveConsensus.Random

variable {L : Learner} {γ : Type}

/-- Buckets with the same records have equally many. -/
theorem count_of_labelled {b b' : Bucket L} (h : b'.store.labelled = b.store.labelled) :
    b'.count = b.count := by
  rw [count, count, ← Store.length_labelled, h, Store.length_labelled]

@[simp] theorem store_fitTo (b : Bucket L) (set : TrainingSet) (seed : UInt64) (rng : γ) :
    (b.fitTo set seed rng).bucket.store = b.store := by
  rw [fitTo]
  split <;> rfl

/-- Training on a resample reads the store and keeps it. -/
@[simp] theorem store_train [Dice γ] (b : Bucket L) (cap : ReplayCap) (rng : γ) :
    (b.train cap rng).bucket.store = b.store := by
  rw [train]
  split
  · rfl
  · exact store_fitTo b _ _ _

/-- Training on all records reads the store and keeps it. -/
@[simp] theorem store_trainFull [Dice γ] (b : Bucket L) (rng : γ) :
    (b.trainFull rng).bucket.store = b.store := by
  rw [trainFull]
  split
  · rfl
  · exact store_fitTo b _ _ _

end Bucket

namespace Buckets

open AdaptiveConsensus.Random

variable {κ : Type} [Indexed κ] {L : Learner} {γ : Type}

/-- Two families of buckets that differ in their models at most. -/
def SameStores (b b' : Buckets κ L) : Prop :=
  ∀ k, (b'.get k).store = (b.get k).store

theorem SameStores.count {b b' : Buckets κ L} (h : SameStores b b') (k : κ) :
    (b'.get k).count = (b.get k).count :=
  congrArg Store.count (h k)

theorem SameStores.refl (b : Buckets κ L) : SameStores b b := fun _ => rfl

theorem SameStores.trans {b b' b'' : Buckets κ L} (h : SameStores b b') (h' : SameStores b' b'') :
    SameStores b b'' :=
  fun k => (h' k).trans (h k)

section

variable [DecidableEq κ]

theorem sameStores_trainOne {train : Bucket L → γ → Training L γ}
    (htrain : ∀ b rng, (train b rng).bucket.store = b.store) (b : Buckets κ L) (k : κ) (rng : γ) :
    SameStores b (b.trainOne train k rng).buckets := by
  intro j
  show ((b.set k (train (b.get k) rng).bucket).get j).store = _
  rw [Table.get_set]
  split
  · next hj => rw [hj, htrain]
  · rfl

theorem sameStores_trainEach {train : Bucket L → γ → Training L γ}
    (htrain : ∀ b rng, (train b rng).bucket.store = b.store) (keys : List κ) (b : Buckets κ L)
    (rng : γ) : SameStores b (trainEach train keys b rng).buckets := by
  induction keys generalizing b rng with
  | nil => exact SameStores.refl b
  | cons k rest ih =>
    have hfirst := sameStores_trainOne htrain b k rng
    rw [trainEach]
    split
    · exact hfirst.trans (ih _ _)
    · exact hfirst

theorem sameStores_trainAll {train : Bucket L → γ → Training L γ}
    (htrain : ∀ b rng, (train b rng).bucket.store = b.store) (b : Buckets κ L) (rng : γ) :
    SameStores b (b.trainAll train rng).buckets :=
  sameStores_trainEach htrain _ b rng

theorem sameStores_trainStale [Dice γ] (b : Buckets κ L) (stale : Option κ) (cap : ReplayCap)
    (rng : γ) : SameStores b (b.trainStale stale cap rng).buckets := by
  cases stale with
  | none => exact SameStores.refl b
  | some k => exact sameStores_trainOne (fun b rng => b.store_train cap rng) b k rng

end

/-- `b'` is `b` with the oldest waiting row `x` of a bucket labelled `y`; the bucket's model and all
other buckets are as they were. -/
structure Labels (b b' : Buckets κ L) (k : κ) (x : Features) (y : Float) : Prop where
  oldest : (b.get k).store.pending = x :: (b'.get k).store.pending
  labelled : (b'.get k).store.labelled = (b.get k).store.labelled ++ [(x, y)]
  model : (b'.get k).model = (b.get k).model
  others : ∀ j ≠ k, b'.get j = b.get j

end Buckets

namespace Filing

section

variable {κ : Type} [DecidableEq κ] (f : Filing κ)

/-- The record that a row is filed as. -/
def record (row : HistoryRow) : Features × Float :=
  (f.encode row.state row.previous row.action, shapeReward row.throughput)

/-- The rows that are filed under a key. -/
def rowsAt (k : κ) (rows : List HistoryRow) : List HistoryRow :=
  rows.filter fun row => f.key row.previous row.action = k

/-- The decisions that are filed under a key. -/
def decisionsAt (k : κ) (waiting : List FiledDecision) : List FiledDecision :=
  waiting.filter fun d => f.key d.previous d.chosen = k

/-- The feature row of a decision. -/
def encodeDecision (d : FiledDecision) : Features :=
  f.encode d.state d.previous d.chosen

variable {f}

theorem rowsAt_concat (k : κ) (rows : List HistoryRow) (row : HistoryRow) :
    f.rowsAt k (rows ++ [row]) =
      f.rowsAt k rows ++ if f.key row.previous row.action = k then [row] else [] := by
  rw [rowsAt, List.filter_append, rowsAt]
  by_cases h : f.key row.previous row.action = k <;> simp [h]

theorem decisionsAt_concat (k : κ) (waiting : List FiledDecision) (d : FiledDecision) :
    f.decisionsAt k (waiting ++ [d]) =
      f.decisionsAt k waiting ++ if f.key d.previous d.chosen = k then [d] else [] := by
  rw [decisionsAt, List.filter_append, decisionsAt]
  by_cases h : f.key d.previous d.chosen = k <;> simp [h]

end

variable {κ : Type} [Indexed κ] [DecidableEq κ] {L : Learner} {f : Filing κ}

/-- The buckets hold the records of resolved rows and the feature rows of waiting decisions, each
under its key and in its order, and nothing else. -/
structure Accounts (f : Filing κ) (b : Buckets κ L) (rows : List HistoryRow)
    (waiting : List FiledDecision) : Prop where
  labelled : ∀ k, (b.get k).store.labelled = (f.rowsAt k rows).map f.record
  pending : ∀ k, (b.get k).store.pending = (f.decisionsAt k waiting).map f.encodeDecision

theorem accounts_empty : f.Accounts (Buckets.empty : Buckets κ L) [] [] := by
  constructor <;> intro k <;> rw [Buckets.empty, Table.get_ofFn] <;> rfl

/-- Accounts do not see models. -/
theorem Accounts.of_sameStores {b b' : Buckets κ L} {rows : List HistoryRow}
    {waiting : List FiledDecision} (h : f.Accounts b rows waiting) (hb : Buckets.SameStores b b') :
    f.Accounts b' rows waiting where
  labelled k := by rw [hb k]; exact h.labelled k
  pending k := by rw [hb k]; exact h.pending k

theorem Accounts.seedRow {b : Buckets κ L} {rows : List HistoryRow} {waiting : List FiledDecision}
    (h : f.Accounts b rows waiting) (row : HistoryRow) :
    f.Accounts (f.seedRow b row) (rows ++ [row]) waiting := by
  have hget : ∀ k, ((f.seedRow b row).get k).store =
      if f.key row.previous row.action = k then
        (b.get k).store.append (f.record row).1 (f.record row).2
      else (b.get k).store := by
    intro k
    rw [Filing.seedRow]
    by_cases hk : f.key row.previous row.action = k
    · rw [if_pos hk, hk, Table.get_modify_self]
      rfl
    · rw [if_neg hk, Table.get_modify_ne _ _ (Ne.symm hk)]
  constructor
  · intro k
    rw [hget, rowsAt_concat]
    split
    · rw [Store.labelled_append, h.labelled, List.map_append]
      rfl
    · rw [h.labelled, List.append_nil]
  · intro k
    rw [hget]
    split
    · rw [Store.pending_append, h.pending]
    · exact h.pending k

theorem Accounts.seed {b : Buckets κ L} {rows : List HistoryRow} {waiting : List FiledDecision}
    (h : f.Accounts b rows waiting) (history : List HistoryRow) :
    f.Accounts (f.seed b history) (rows ++ history) waiting := by
  induction history generalizing b rows with
  | nil => rwa [List.append_nil]
  | cons row rest ih =>
    rw [List.append_cons]
    exact ih (h.seedRow row)

/-- Seeding files the history and nothing else. -/
theorem accounts_seed (history : List HistoryRow) :
    f.Accounts (f.seed (Buckets.empty : Buckets κ L) history) history [] := by
  simpa using accounts_empty.seed (f := f) (L := L) history

/-- A decision waits at the end. -/
theorem Accounts.recordDecision {b : Buckets κ L} {rows : List HistoryRow}
    {waiting : List FiledDecision} (h : f.Accounts b rows waiting) (d : FiledDecision) :
    f.Accounts (f.recordDecision b d.previous d.chosen d.state) rows (waiting ++ [d]) := by
  have hget : ∀ k, ((f.recordDecision b d.previous d.chosen d.state).get k).store =
      if f.key d.previous d.chosen = k then (b.get k).store.pushPending (f.encodeDecision d)
      else (b.get k).store := by
    intro k
    rw [Filing.recordDecision]
    by_cases hk : f.key d.previous d.chosen = k
    · rw [if_pos hk, hk, Table.get_modify_self]
      rfl
    · rw [if_neg hk, Table.get_modify_ne _ _ (Ne.symm hk)]
  constructor
  · intro k
    rw [hget]
    split
    · rw [Store.labelled_pushPending, h.labelled]
    · exact h.labelled k
  · intro k
    rw [hget, decisionsAt_concat]
    split
    · rw [Store.pending_pushPending, h.pending, List.map_append]
      rfl
    · rw [h.pending, List.append_nil]

/-- A throughput is refused if no decision of its key waits. -/
theorem Accounts.refuses {b : Buckets κ L} {rows : List HistoryRow} {waiting : List FiledDecision}
    (h : f.Accounts b rows waiting) {previous chosen : Protocol}
    (hnone : ∀ d ∈ waiting, f.key d.previous d.chosen ≠ f.key previous chosen) (raw : Float) :
    f.recordReward? b previous chosen raw = none := by
  have hempty : (b.get (f.key previous chosen)).store.pending = [] := by
    rw [h.pending, decisionsAt, List.filter_eq_nil_iff.mpr fun d hd => by simpa using hnone d hd]
    rfl
  rw [Filing.recordReward?, Store.assignReward?_eq_none.mpr hempty]
  rfl

/-- A throughput labels the row of the oldest waiting decision of its key, wherever that stands among
the decisions that wait, and resolves it. -/
theorem Accounts.labels {b : Buckets κ L} {rows : List HistoryRow} {d : FiledDecision}
    {front back : List FiledDecision} (h : f.Accounts b rows (front ++ d :: back))
    {previous chosen : Protocol}
    (hfront : ∀ e ∈ front, f.key e.previous e.chosen ≠ f.key previous chosen)
    (hkey : f.key d.previous d.chosen = f.key previous chosen) (raw : Float) :
    ∃ b', f.recordReward? b previous chosen raw = some b' ∧
      b.Labels b' (f.key previous chosen) (f.encodeDecision d) (shapeReward raw) ∧
      f.Accounts b' (rows ++ [d.resolved raw]) (front ++ back) := by
  have hat : ∀ k, f.decisionsAt k (front ++ d :: back) =
      f.decisionsAt k front ++ f.decisionsAt k (d :: back) := fun _ => List.filter_append ..
  have hnone : f.decisionsAt (f.key previous chosen) front = [] :=
    List.filter_eq_nil_iff.mpr fun e he => by simpa using hfront e he
  -- the first decision of a key is the head of its bucket's queue
  have hhead : (b.get (f.key previous chosen)).store.pending =
      f.encodeDecision d :: (f.decisionsAt (f.key previous chosen) back).map f.encodeDecision := by
    rw [h.pending, hat, hnone, List.nil_append, decisionsAt,
      List.filter_cons_of_pos (by simpa using hkey)]
    rfl
  obtain ⟨s', hs', hlabelled, hpending⟩ :=
    Store.assignReward?_of_pending (shapeReward raw) hhead
  refine ⟨_, by rw [Filing.recordReward?, hs']; rfl, ⟨?_, ?_, ?_, ?_⟩, ?_, ?_⟩
  · rw [hhead, Table.get_set_self, hpending]
  · rw [Table.get_set_self]
    exact hlabelled
  · rw [Table.get_set_self]
  · intro j hj
    exact Table.get_set_ne _ _ hj
  · intro k
    rw [rowsAt_concat, Table.get_set, FiledDecision.resolved, hkey]
    by_cases hk : f.key previous chosen = k
    · -- a resolved decision makes the record of the history row that it becomes
      subst hk
      rw [if_pos rfl, if_pos rfl, List.map_append, ← h.labelled]
      exact hlabelled
    · rw [if_neg (Ne.symm hk), if_neg hk, List.append_nil, h.labelled]
  · intro k
    rw [Table.get_set]
    have happend : f.decisionsAt k (front ++ back) = f.decisionsAt k front ++ f.decisionsAt k back :=
      List.filter_append ..
    by_cases hk : f.key previous chosen = k
    · subst hk
      rw [if_pos rfl, happend, hnone]
      exact hpending
    · have hd : f.decisionsAt k (d :: back) = f.decisionsAt k back :=
        List.filter_cons_of_neg (by rw [hkey]; simpa using hk)
      rw [if_neg (Ne.symm hk), h.pending, hat, hd, happend]

/-- A throughput for the oldest waiting decision is accepted and resolves that decision. -/
theorem Accounts.recordReward {b : Buckets κ L} {rows : List HistoryRow} {d : FiledDecision}
    {waiting : List FiledDecision} (h : f.Accounts b rows (d :: waiting)) (raw : Float) :
    ∃ b', f.recordReward? b d.previous d.chosen raw = some b' ∧
      f.Accounts b' (rows ++ [d.resolved raw]) waiting := by
  have hnone : ∀ e ∈ ([] : List FiledDecision),
      f.key e.previous e.chosen ≠ f.key d.previous d.chosen :=
    fun e he => (List.not_mem_nil he).elim
  obtain ⟨b', hb', -, hacc⟩ := Accounts.labels h hnone rfl raw
  exact ⟨b', hb', hacc⟩

omit [DecidableEq κ] in
/-- A reward adds a record to the bucket of its decision and leaves the others alone. -/
theorem recordReward?_eq_some {b b' : Buckets κ L} {previous chosen : Protocol} {raw : Float}
    (h : f.recordReward? b previous chosen raw = some b') :
    (b'.get (f.key previous chosen)).count = (b.get (f.key previous chosen)).count + 1 ∧
      ∀ k ≠ f.key previous chosen, b'.get k = b.get k := by
  obtain ⟨s, hs, rfl⟩ := Option.map_eq_some_iff.mp h
  refine ⟨?_, fun k hk => Table.get_set_ne _ _ hk⟩
  rw [Table.get_set_self]
  exact Store.count_assignReward? hs

/-- A decision changes no record. -/
theorem labelled_recordDecision (b : Buckets κ L) (previous chosen : Protocol) (state : StateVector)
    (k : κ) : ((f.recordDecision b previous chosen state).get k).store.labelled =
      (b.get k).store.labelled := by
  rw [recordDecision]
  by_cases hk : k = f.key previous chosen
  · rw [hk, Table.get_modify_self]
    exact Store.labelled_pushPending ..
  · rw [Table.get_modify_ne _ _ hk]

/-- A decision adds no record. -/
theorem count_recordDecision (b : Buckets κ L) (previous chosen : Protocol) (state : StateVector)
    (k : κ) : ((f.recordDecision b previous chosen state).get k).count = (b.get k).count :=
  Bucket.count_of_labelled (labelled_recordDecision b previous chosen state k)

/-- A decision changes no model. -/
theorem model_recordDecision (b : Buckets κ L) (previous chosen : Protocol) (state : StateVector)
    (k : κ) : ((f.recordDecision b previous chosen state).get k).model = (b.get k).model := by
  rw [recordDecision]
  by_cases hk : k = f.key previous chosen
  · rw [hk, Table.get_modify_self]
    rfl
  · rw [Table.get_modify_ne _ _ hk]

/-- A bucket is without records exactly if no row has its key. -/
theorem Accounts.count_eq_zero {b : Buckets κ L} {rows : List HistoryRow}
    {waiting : List FiledDecision} (h : f.Accounts b rows waiting) (k : κ) :
    (b.get k).count = 0 ↔ ∀ row ∈ rows, f.key row.previous row.action ≠ k := by
  have hlength : (b.get k).count = (f.rowsAt k rows).length := by
    rw [← List.length_map (f := f.record), ← h.labelled k]
    exact (Store.length_labelled _).symm
  rw [hlength, List.length_eq_zero_iff, rowsAt, List.filter_eq_nil_iff]
  simp only [decide_eq_true_eq, ne_eq]

/-- What is shown for a pair is the last resolved row of its key. -/
theorem Accounts.latest?_eq {b : Buckets κ L} {rows : List HistoryRow} {waiting : List FiledDecision}
    (h : f.Accounts b rows waiting) (previous chosen : Protocol) :
    f.latest? b previous chosen = (f.rowsAt (f.key previous chosen) rows).getLast?.map
      fun row => f.restore (f.record row).1 := by
  rw [latest?, Store.latest?_eq, h.labelled, List.getLast?_map, Option.map_map, Option.map_map]
  rfl

end Filing

end AdaptiveConsensus
