import AdaptiveConsensus.Experience.Store

/-!
# A store as a list of records and a queue

A store keeps feature rows and rewards in two lists of different length. Its meaning is in two
views: `labelled`, the records whose reward is known, and `pending`, the queue of rows that wait.
Each operation is one equation through these views, and nothing outside this file opens a store.

- `labelled_append`, `pending_append`: a history record goes behind the records and leaves the queue
  alone.
- `labelled_pushPending`, `pending_pushPending`: a new row goes to the end of the queue.
- `assignReward?_eq_none`, `assignReward?_of_pending`: a reward takes the head of the queue behind
  the records, and is refused exactly when the queue is empty.
- `latest?_eq`, `fullHistory_eq`: the row labelled last is the row of the last record, and what is handed
  out as all of the history are the records.
-/

namespace AdaptiveConsensus

namespace Store

theorem count_le (s : Store) : s.count ≤ s.features.length :=
  s.rewards_le

theorem length_take_count (s : Store) : (s.features.take s.count).length = s.rewards.length := by
  rw [List.length_take]
  exact Nat.min_eq_left s.count_le

@[simp] theorem length_labelled (s : Store) : s.labelled.length = s.count := by
  have := s.count_le
  rw [labelled, List.length_zip]
  show min s.features.length s.count = s.count
  omega

/-- Only the labelled rows take part in the records. -/
theorem labelled_eq_zip_take (s : Store) : s.labelled = (s.features.take s.count).zip s.rewards := by
  have hrows : s.features = s.features.take s.count ++ s.features.drop s.count :=
    (List.take_append_drop _ _).symm
  calc s.features.zip s.rewards
      = (s.features.take s.count ++ s.features.drop s.count).zip (s.rewards ++ []) := by
        rw [← hrows, List.append_nil]
    _ = (s.features.take s.count).zip s.rewards := by
        rw [List.zip_append s.length_take_count, List.zip_nil_right, List.append_nil]

/-- The rows of a store are those of its records followed by those that wait. -/
theorem features_eq (s : Store) : s.features = s.labelled.map Prod.fst ++ s.pending := by
  rw [labelled_eq_zip_take, List.map_fst_zip (Nat.le_of_eq s.length_take_count), pending, List.take_append_drop]

/-- The rewards of a store are those of its records. -/
theorem rewards_eq (s : Store) : s.rewards = s.labelled.map Prod.snd := by
  rw [labelled, List.map_snd_zip s.rewards_le]

theorem length_pending (s : Store) : s.pending.length = s.pendingCount := by
  rw [pending, List.length_drop]
  rfl

theorem fullHistory_eq (s : Store) : s.fullHistory = TrainingSet.ofRecords s.labelled := by
  rw [fullHistory, TrainingSet.ofRecords, ← s.rewards_eq, labelled_eq_zip_take,
    List.map_fst_zip (Nat.le_of_eq s.length_take_count)]

/-- The record at a position is the row and the reward there. -/
theorem getElem?_labelled {s : Store} {k : Nat} (hk : k < s.count) :
    s.labelled[k]? = some (s.features.get ⟨k, Nat.lt_of_lt_of_le hk s.rewards_le⟩,
      s.rewards.get ⟨k, hk⟩) := by
  have hlabelled : k < s.labelled.length := by rwa [length_labelled]
  rw [List.getElem?_eq_getElem hlabelled]
  exact congrArg some List.getElem_zip

/-- A history record goes behind the records, ahead of the rows that wait. -/
theorem labelled_append (s : Store) (x : Features) (y : Float) :
    (s.append x y).labelled = s.labelled ++ [(x, y)] := by
  rw [labelled_eq_zip_take s]
  show (s.features.take s.count ++ x :: s.features.drop s.count).zip (s.rewards ++ [y]) = _
  rw [List.zip_append s.length_take_count, List.zip_cons_cons, List.zip_nil_right]

theorem pending_append (s : Store) (x : Features) (y : Float) :
    (s.append x y).pending = s.pending := by
  have hcount : (s.append x y).count = s.count + 1 := by
    show (s.rewards ++ [y]).length = _
    rw [List.length_append]
    rfl
  -- the new row goes in just before the split, which moves behind it
  have hlen : (s.features.take s.count ++ [x]).length = s.count + 1 := by
    rw [List.length_append, List.length_take, Nat.min_eq_left s.count_le]
    rfl
  rw [pending, hcount]
  show (s.features.take s.count ++ x :: s.features.drop s.count).drop (s.count + 1) = _
  rw [List.append_cons, ← hlen, List.drop_left, pending]

theorem labelled_pushPending (s : Store) (x : Features) :
    (s.pushPending x).labelled = s.labelled := by
  rw [labelled_eq_zip_take, labelled_eq_zip_take s]
  show ((s.features ++ [x]).take s.count).zip s.rewards = _
  rw [List.take_append_of_le_length s.count_le]

/-- A new row waits behind all others. -/
theorem pending_pushPending (s : Store) (x : Features) :
    (s.pushPending x).pending = s.pending ++ [x] := by
  show (s.features ++ [x]).drop s.count = _
  rw [List.drop_append_of_le_length s.count_le, pending]

/-- A reward is refused exactly when no row waits for one. -/
theorem assignReward?_eq_none {s : Store} {y : Float} :
    s.assignReward? y = none ↔ s.pending = [] := by
  rw [pending, List.drop_eq_nil_iff, assignReward?]
  show _ ↔ s.features.length ≤ s.rewards.length
  split
  · simp only [reduceCtorEq, false_iff]
    omega
  · simp only [true_iff]
    omega

theorem count_assignReward? {s s' : Store} {y : Float} (h : s.assignReward? y = some s') :
    s'.count = s.count + 1 := by
  rw [assignReward?] at h
  split at h
  · obtain rfl := Option.some.inj h
    show (s.rewards ++ [y]).length = _
    rw [List.length_append]
    rfl
  · cases h

/-- A reward labels the row at the head of the queue. -/
theorem assignReward?_of_pending {s : Store} {x : Features} {rest : List Features} (y : Float)
    (h : s.pending = x :: rest) :
    ∃ s', s.assignReward? y = some s' ∧ s'.labelled = s.labelled ++ [(x, y)] ∧ s'.pending = rest := by
  have hrows : s.features = s.features.take s.count ++ x :: rest := by
    rw [← h, pending, List.take_append_drop]
  have hlt : s.rewards.length < s.features.length := by
    rw [hrows, List.length_append, s.length_take_count, List.length_cons]
    omega
  refine ⟨_, dif_pos hlt, ?_, ?_⟩
  · rw [labelled_eq_zip_take s]
    calc s.features.zip (s.rewards ++ [y])
        = (s.features.take s.count ++ x :: rest).zip (s.rewards ++ [y]) := by rw [← hrows]
      _ = (s.features.take s.count).zip s.rewards ++ [(x, y)] := by
          rw [List.zip_append s.length_take_count, List.zip_cons_cons, List.zip_nil_right]
  · show s.features.drop (s.rewards ++ [y]).length = rest
    have hcut : (s.features.take s.count ++ [x]).length = (s.rewards ++ [y]).length := by
      rw [List.length_append, s.length_take_count, List.length_append]
      rfl
    rw [hrows, List.append_cons (s.features.take s.count), ← hcut]
    exact List.drop_left

/-- The row labelled last is the row of the last record. -/
theorem latest?_eq (s : Store) : s.latest? = s.labelled.getLast?.map Prod.fst := by
  rw [latest?, List.getLast?_eq_getElem?, length_labelled]
  split
  · next h => simp [h, List.length_eq_zero_iff.mp (s.length_labelled.trans h)]
  · next h =>
    -- the row before the split belongs to a record
    have hlt : s.count - 1 < s.labelled.length := by rw [length_labelled]; omega
    rw [s.features_eq, List.getElem?_append_left (by simpa using hlt), List.getElem?_map]

end Store

end AdaptiveConsensus
