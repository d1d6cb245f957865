import AdaptiveConsensus.Proofs.Experience.Store

/-!
# Operations on a store in any order

A store keeps its rows in one list, which is split where the rewards end: a history record goes in at
the split while rows wait behind it, and a reward moves the split by one. A *chronicle* has the two
parts apart, as a list of records and a queue, and its operations say what is meant. A store that takes
any operations from the empty one on does what the chronicle does.

- `Store.chronicle_perform?`: one operation on a store is that operation on its chronicle, refused if
  that is refused.
- `Store.chronicle_after`: so are any operations.
- `Store.shows_chronicle`: whatever can be asked of a store is read off its chronicle.
- `Store.shows_of_operations`: the two run side by side.
-/

namespace AdaptiveConsensus

/-- An operation on a store. -/
inductive StoreOp where
  /-- A history record comes with its reward. -/
  | append (x : Features) (y : Float)
  /-- A row comes whose reward is not known yet. -/
  | pushPending (x : Features)
  /-- A reward comes for the row that waits longest. -/
  | assignReward (y : Float)

/-- A list of records and a queue of rows that wait for a reward. -/
structure Chronicle where
  records : List (Features × Float)
  queue : List Features

namespace Chronicle

/-- No records, and nothing waits. -/
def empty : Chronicle := ⟨[], []⟩

/-- What an operation makes of the list and the queue. A reward takes the head of the queue behind the
records, and is refused if there is none. -/
def perform? (c : Chronicle) : StoreOp → Option Chronicle
  | .append x y => some { c with records := c.records ++ [(x, y)] }
  | .pushPending x => some { c with queue := c.queue ++ [x] }
  | .assignReward y =>
    match c.queue with
    | [] => none
    | x :: rest => some ⟨c.records ++ [(x, y)], rest⟩

/-- What a sequence of operations leaves. A refused one changes nothing. -/
def after (c : Chronicle) (ops : List StoreOp) : Chronicle :=
  ops.foldl (fun c op => (c.perform? op).getD c) c

end Chronicle

namespace Store

/-- What an operation leaves, unless it is refused. -/
def perform? (s : Store) : StoreOp → Option Store
  | .append x y => some (s.append x y)
  | .pushPending x => some (s.pushPending x)
  | .assignReward y => s.assignReward? y

/-- What a sequence of operations leaves. A refused one changes nothing. -/
def after (s : Store) (ops : List StoreOp) : Store :=
  ops.foldl (fun s op => (s.perform? op).getD s) s

theorem after_concat (s : Store) (ops : List StoreOp) (op : StoreOp) :
    s.after (ops ++ [op]) = ((s.after ops).perform? op).getD (s.after ops) := by
  rw [after, List.foldl_append]
  rfl

/-- The two parts of a store. -/
def chronicle (s : Store) : Chronicle :=
  ⟨s.labelled, s.pending⟩

/-! ## One operation and any operations -/

/-- A store takes an operation as its chronicle does. -/
theorem chronicle_perform? (s : Store) (op : StoreOp) :
    (s.perform? op).map chronicle = s.chronicle.perform? op := by
  cases op with
  | append x y =>
    simp only [perform?, Chronicle.perform?, chronicle, Option.map_some, labelled_append,
      pending_append]
  | pushPending x =>
    simp only [perform?, Chronicle.perform?, chronicle, Option.map_some, labelled_pushPending,
      pending_pushPending]
  | assignReward y =>
    rw [perform?, Chronicle.perform?, chronicle]
    cases hqueue : s.pending with
    | nil =>
      rw [assignReward?_eq_none.mpr hqueue]
      rfl
    | cons x rest =>
      obtain ⟨s', hs', hlabelled, hpending⟩ := assignReward?_of_pending y hqueue
      rw [hs', Option.map_some, chronicle, hlabelled, hpending]

theorem chronicle_after (s : Store) (ops : List StoreOp) :
    (s.after ops).chronicle = s.chronicle.after ops := by
  induction ops generalizing s with
  | nil => rfl
  | cons op rest ih =>
    have hstep : ((s.perform? op).getD s).chronicle =
        (s.chronicle.perform? op).getD s.chronicle := by
      rw [← s.chronicle_perform? op, Option.getD_map]
    exact (ih _).trans (congrArg (fun c => Chronicle.after c rest) hstep)

/-! ## What a store shows -/

/-- All that can be asked of a store, for the records and the queue of a chronicle. -/
structure Shows (s : Store) (c : Chronicle) : Prop where
  features : s.features = c.records.map Prod.fst ++ c.queue
  rewards : s.rewards = c.records.map Prod.snd
  count : s.count = c.records.length
  pendingCount : s.pendingCount = c.queue.length
  /-- The number of rows that wait is a true difference. -/
  split : s.count + s.pendingCount = s.features.length
  fullHistory : s.fullHistory = TrainingSet.ofRecords c.records
  latest : s.latest? = c.records.getLast?.map Prod.fst
  latest_none : s.latest? = none ↔ c.records = []

/-- A store shows its own two parts. -/
theorem shows_chronicle (s : Store) : s.Shows s.chronicle where
  features := s.features_eq
  rewards := s.rewards_eq
  count := s.length_labelled.symm
  pendingCount := s.length_pending.symm
  split := Nat.add_sub_cancel' s.count_le
  fullHistory := s.fullHistory_eq
  latest := s.latest?_eq
  latest_none := by
    rw [latest?_eq, Option.map_eq_none_iff, List.getLast?_eq_none_iff]
    rfl

/-- Two outcomes, the second of which is the chronicle of the first, are refused together or show one
another. -/
theorem rel_shows_map : ∀ s? : Option Store, Option.Rel Shows s? (s?.map chronicle)
  | none => .none
  | some s => .some s.shows_chronicle

/-- After any operations on the empty store, refused ones among them, it shows the records and the queue
that these operations make. It takes a further operation if and only if the chronicle does, and shows
what the chronicle becomes; a refused one leaves it as it is. -/
theorem shows_of_operations (ops : List StoreOp) :
    (empty.after ops).Shows (Chronicle.empty.after ops) ∧
      ∀ op, Option.Rel Shows ((empty.after ops).perform? op)
          ((Chronicle.empty.after ops).perform? op) ∧
        ((empty.after ops).perform? op = none → empty.after (ops ++ [op]) = empty.after ops) := by
  have hrun : Chronicle.empty.after ops = (empty.after ops).chronicle :=
    (chronicle_after empty ops).symm
  rw [hrun]
  refine ⟨shows_chronicle _, ?_⟩
  intro op
  constructor
  · rw [← chronicle_perform?]
    exact rel_shows_map _
  · intro hrefused
    rw [after_concat, hrefused, Option.getD_none]

end Store

end AdaptiveConsensus
