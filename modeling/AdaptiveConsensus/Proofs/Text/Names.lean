import AdaptiveConsensus.Protocol
import Mathlib.Data.List.Forall2

/-!
# Reading in steps

A reader that goes step by step succeeds if every step does. The name of a protocol is read in any
letter case and between any blanks.

- `bind_eq_ok_iff`, `mapM_eq_ok_iff`: what it takes for all steps to succeed.
- `Protocol.read_eq_ok_iff`: the texts that name a protocol.
-/

namespace AdaptiveConsensus

open Text

theorem bind_eq_ok_iff {ε α β : Type} {x : Except ε α} {f : α → Except ε β} {b : β} :
    x >>= f = .ok b ↔ ∃ a, x = .ok a ∧ f a = .ok b := by
  cases x with
  | error e =>
    constructor
    · intro h
      cases h
    · rintro ⟨a, h, -⟩
      cases h
  | ok a =>
    constructor
    · intro h
      exact ⟨a, rfl, h⟩
    · rintro ⟨a, h, hb⟩
      cases h
      exact hb

/-- Reading one after another succeeds if each succeeds. -/
theorem mapM_eq_ok_iff {ε α β : Type} {f : α → Except ε β} {xs : List α} {ys : List β} :
    xs.mapM f = .ok ys ↔ List.Forall₂ (fun x y => f x = .ok y) xs ys := by
  induction xs generalizing ys with
  | nil =>
    rw [List.mapM_nil, List.forall₂_nil_left_iff, eq_comm]
    exact Except.ok.injEq ys [] ▸ Iff.rfl
  | cons x xs ih =>
    rw [List.mapM_cons, bind_eq_ok_iff, List.forall₂_cons_left_iff]
    constructor
    · rintro ⟨y, hy, h⟩
      obtain ⟨rest, hrest, hys⟩ := bind_eq_ok_iff.mp h
      cases hys
      exact ⟨y, rest, hy, ih.mp hrest, rfl⟩
    · rintro ⟨y, rest, hy, hrest, rfl⟩
      exact ⟨y, hy, bind_eq_ok_iff.mpr ⟨rest, ih.mpr hrest, rfl⟩⟩

namespace Protocol

/-- Protocols are told apart by their names. -/
theorem name_inj {p q : Protocol} (h : p.name = q.name) : p = q := by
  revert h
  cases p <;> cases q <;> decide

/-- A text is read as the protocol that it names, in whatever letter case and between whatever
blanks. -/
theorem read_eq_ok_iff {text : List Char} {p : Protocol} :
    Protocol.read text = .ok p ↔ foldCase (trim text) = p.name.toList := by
  have hread : Protocol.read text = .ok p ↔ read? text = some p := by
    rw [Protocol.read]
    cases read? text <;> simp
  rw [hread, read?]
  constructor
  · intro h
    have hp := List.find?_some h
    exact (beq_iff_eq.mp hp).symm
  · intro h
    cases hfind : pool.find? fun q => q.name.toList == foldCase (trim text) with
    | none =>
      have hp := List.find?_eq_none.mp hfind p (mem_pool p)
      exact absurd (beq_iff_eq.mpr h.symm) hp
    | some q =>
      have hq := List.find?_some hfind
      rw [name_inj (String.toList_inj.mp ((beq_iff_eq.mp hq).trans h))]

theorem read_name (p : Protocol) : Protocol.read p.name.toList = .ok p := by
  rw [Protocol.read, read?_name]

end Protocol

end AdaptiveConsensus
