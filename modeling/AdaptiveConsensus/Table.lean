import AdaptiveConsensus.Protocol

/-!
# Tables

A table holds one entry for every key of a finite type, in the order of the keys' positions
(rl/strategy/mod.rs:162-167): six entries for the protocols, thirty-six for their pairs, one for the
unit key.

* `get_set`: writing an entry changes that entry and no other.
* `get_ofFn`: a table made by a function holds that function's values.
-/

namespace AdaptiveConsensus

/-- A finite type whose members are numbered. -/
class Indexed (κ : Type) where
  size : Nat
  index : κ → Fin size
  ofIndex : Fin size → κ
  ofIndex_index : ∀ k, ofIndex (index k) = k
  index_ofIndex : ∀ i, index (ofIndex i) = i

instance : Indexed Protocol where
  size := 6
  index := Protocol.index
  ofIndex := Protocol.ofIndex
  ofIndex_index := Protocol.ofIndex_index
  index_ofIndex := Protocol.index_ofIndex

instance : Indexed Unit where
  size := 1
  index _ := 0
  ofIndex _ := ()
  ofIndex_index _ := rfl
  index_ofIndex i := by revert i; decide

/-- Pairs of protocols are numbered row by row: the first protocol is the row. -/
instance : Indexed (Protocol × Protocol) where
  size := 36
  index k := ⟨6 * k.1.index.val + k.2.index.val, by have := k.1.index.isLt; have := k.2.index.isLt; omega⟩
  ofIndex i := (Protocol.ofIndex ⟨i.val / 6, by have := i.isLt; omega⟩,
    Protocol.ofIndex ⟨i.val % 6, by omega⟩)
  ofIndex_index k := by
    obtain ⟨p, c⟩ := k
    cases p <;> cases c <;> rfl
  index_ofIndex i := by revert i; decide

namespace Indexed

variable {κ : Type} [Indexed κ]

theorem index_inj {j k : κ} (h : index j = index k) : j = k := by
  rw [← ofIndex_index j, h, ofIndex_index]

/-- All keys in the order of their positions. -/
def keys (κ : Type) [Indexed κ] : List κ :=
  (List.finRange (size κ)).map ofIndex

theorem mem_keys (k : κ) : k ∈ keys κ :=
  List.mem_map.2 ⟨index k, List.mem_finRange _, ofIndex_index k⟩

end Indexed

/-- One entry of type `α` for each key of `κ`. -/
structure Table (κ : Type) [Indexed κ] (α : Type) where
  entries : Vector α (Indexed.size κ)

namespace Table

variable {κ : Type} [Indexed κ] {α : Type}

/-- The table of a function's values. -/
def ofFn (f : κ → α) : Table κ α :=
  ⟨Vector.ofFn fun i => f (Indexed.ofIndex i)⟩

/-- The entry of a key. -/
def get (t : Table κ α) (k : κ) : α :=
  t.entries[Indexed.index k]

/-- The table with another entry for a key. -/
def set (t : Table κ α) (k : κ) (a : α) : Table κ α :=
  ⟨t.entries.set (Indexed.index k) a⟩

/-- The table with a key's entry changed by a function. -/
def modify (t : Table κ α) (k : κ) (f : α → α) : Table κ α :=
  t.set k (f (t.get k))

@[simp] theorem get_ofFn (f : κ → α) (k : κ) : (ofFn f).get k = f k := by
  simp [ofFn, get, Indexed.ofIndex_index]

@[simp] theorem get_set_self (t : Table κ α) (k : κ) (a : α) : (t.set k a).get k = a := by
  simp [set, get]

theorem get_set_ne (t : Table κ α) {j k : κ} (a : α) (h : j ≠ k) : (t.set k a).get j = t.get j := by
  have hne : (Indexed.index k).val ≠ (Indexed.index j).val :=
    fun he => h (Indexed.index_inj (Fin.ext he)).symm
  simp [set, get, Vector.getElem_set_ne _ _ hne]

/-- Writing an entry changes that entry and no other. -/
theorem get_set [DecidableEq κ] (t : Table κ α) (j k : κ) (a : α) :
    (t.set k a).get j = if j = k then a else t.get j := by
  split
  · subst j; exact get_set_self t k a
  · exact get_set_ne t a (by assumption)

@[simp] theorem get_modify_self (t : Table κ α) (k : κ) (f : α → α) :
    (t.modify k f).get k = f (t.get k) :=
  get_set_self t k _

theorem get_modify_ne (t : Table κ α) {j k : κ} (f : α → α) (h : j ≠ k) :
    (t.modify k f).get j = t.get j :=
  get_set_ne t _ h

/-- Tables with the same entries are equal. -/
theorem ext {s t : Table κ α} (h : ∀ k, s.get k = t.get k) : s = t := by
  obtain ⟨s⟩ := s
  obtain ⟨t⟩ := t
  congr 1
  apply Vector.ext
  intro i hi
  have := h (Indexed.ofIndex ⟨i, hi⟩)
  simpa [get, Indexed.index_ofIndex] using this

/-- Writing what an entry holds changes nothing. -/
@[simp] theorem set_get (t : Table κ α) (k : κ) : t.set k (t.get k) = t := by
  apply ext
  intro j
  by_cases hj : j = k
  · rw [hj, get_set_self]
  · exact get_set_ne t _ hj

end Table

end AdaptiveConsensus
