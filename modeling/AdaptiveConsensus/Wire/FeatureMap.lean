/-!
# Numbers by feature id

The body of a report message (comm/wire.rs:34-35): 32-bit numbers by feature id. The ids ascend, so that
a map has one form, in which it is also written.

* `get?_insert`: writing a number changes what is read at its id and nowhere else.
-/

namespace AdaptiveConsensus

/-- Numbers by feature id. -/
structure FeatureMap where
  entries : List (Int × Float32)
  ascending : entries.Pairwise fun a b => a.1 < b.1
  deriving DecidableEq

namespace FeatureMap

/-- The map without numbers. -/
def empty : FeatureMap := ⟨[], .nil⟩

/-- The number at an id in entries with ascending ids. -/
def lookup (id : Int) : List (Int × Float32) → Option Float32
  | [] => none
  | (k, x) :: rest => if id = k then some x else lookup id rest

/-- The entries with a number at an id; an earlier number at the id is replaced. -/
def put (id : Int) (x : Float32) : List (Int × Float32) → List (Int × Float32)
  | [] => [(id, x)]
  | (k, y) :: rest =>
    if id < k then (id, x) :: (k, y) :: rest
    else if id = k then (id, x) :: rest
    else (k, y) :: put id x rest

theorem mem_put {id : Int} {x : Float32} {entries : List (Int × Float32)} {e : Int × Float32}
    (h : e ∈ put id x entries) : e = (id, x) ∨ e ∈ entries := by
  induction entries with
  | nil => simpa [put] using h
  | cons head rest ih =>
    obtain ⟨k, y⟩ := head
    simp only [put] at h
    split at h
    · simpa using h
    · split at h
      · rcases List.mem_cons.1 h with h | h <;> simp [h]
      · rcases List.mem_cons.1 h with h | h
        · simp [h]
        · rcases ih h with h | h <;> simp [h]

theorem ascending_put {id : Int} {x : Float32} {entries : List (Int × Float32)}
    (h : entries.Pairwise fun a b => a.1 < b.1) :
    (put id x entries).Pairwise fun a b => a.1 < b.1 := by
  induction entries with
  | nil => simp [put]
  | cons head rest ih =>
    obtain ⟨k, y⟩ := head
    obtain ⟨hk, hrest⟩ := List.pairwise_cons.1 h
    simp only [put]
    split
    · next hlt =>
      refine List.pairwise_cons.2 ⟨fun e he => ?_, h⟩
      rcases List.mem_cons.1 he with rfl | he
      · exact hlt
      · exact Int.lt_trans hlt (hk e he)
    · split
      · next heq => subst heq; exact List.pairwise_cons.2 ⟨hk, hrest⟩
      · refine List.pairwise_cons.2 ⟨fun e he => ?_, ih hrest⟩
        rcases mem_put he with rfl | he
        · simp only; omega
        · exact hk e he

/-- The number at an id. -/
def get? (m : FeatureMap) (id : Int) : Option Float32 :=
  lookup id m.entries

/-- The map with a number at an id; an earlier number at the id is replaced. -/
def insert (m : FeatureMap) (id : Int) (x : Float32) : FeatureMap :=
  ⟨put id x m.entries, ascending_put m.ascending⟩

/-- The map of pairs; of several numbers at one id the last counts. -/
def ofList (pairs : List (Int × Float32)) : FeatureMap :=
  pairs.foldl (fun m (id, x) => m.insert id x) empty

theorem lookup_put (id j : Int) (x : Float32) (entries : List (Int × Float32)) :
    lookup j (put id x entries) = if j = id then some x else lookup j entries := by
  induction entries with
  | nil => simp [put, lookup]
  | cons head rest ih =>
    obtain ⟨k, y⟩ := head
    simp only [put]
    split
    · simp [lookup]
    · split
      · next heq =>
        subst heq
        simp only [lookup]
        split <;> rfl
      · simp only [lookup, ih]
        split
        · next hjk => subst hjk; rw [if_neg (by omega)]
        · rfl

/-- Writing a number changes what is read at its id and nowhere else. -/
theorem get?_insert (m : FeatureMap) (id j : Int) (x : Float32) :
    (m.insert id x).get? j = if j = id then some x else m.get? j :=
  lookup_put id j x m.entries

end FeatureMap

end AdaptiveConsensus
