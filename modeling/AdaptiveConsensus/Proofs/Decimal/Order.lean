import Mathlib.Data.Prod.Lex
import Mathlib.Algebra.Order.Group.Int
import AdaptiveConsensus.Proofs.Decimal.Bits

/-!
# The order of numbers

Comparing two numbers compares their places in one linear order, unless one of them is not a number:
then neither is smaller and they are not equal. The two zeros share a place. All other numbers have a
place of their own.

- `lt_iff_place`, `beq_iff_place`: comparison is comparison of places.
- `not_lt_trans`: being no smaller carries over.
- `eq_of_unpack`: a number is what it unpacks to.
-/

namespace AdaptiveConsensus.Decimal

open Float.Model (UnpackedFloat Format)
open Float.Model.UnpackedFloat (Sign pack)

/-- The place of a number: its class comes first, then the exponent, then the mantissa. What is not a
number is given the place of zero, where no comparison looks for it. -/
def place : UnpackedFloat → Int ×ₗ Int ×ₗ Int
  | .infinity .negative => toLex (-2, toLex (0, 0))
  | .finite .negative mantissa exponent _ => toLex (-1, toLex (-exponent, -mantissa))
  | .zero _ | .notANumber => toLex (0, toLex (0, 0))
  | .finite .positive mantissa exponent _ => toLex (1, toLex (exponent, mantissa))
  | .infinity .positive => toLex (2, toLex (0, 0))

theorem compare_signs : compare Sign.negative Sign.negative = .eq ∧
    compare Sign.negative Sign.positive = .lt ∧ compare Sign.positive Sign.negative = .gt ∧
    compare Sign.positive Sign.positive = .eq :=
  ⟨rfl, rfl, rfl, rfl⟩

theorem compare_eq_lt {a b : UnpackedFloat} : a.compare b = some .lt ↔
    a.isNaN = false ∧ b.isNaN = false ∧ place a < place b := by
  rcases a with (_ | _) | _ | _ | ⟨_ | _, m, e, h⟩ <;>
    rcases b with (_ | _) | _ | _ | ⟨_ | _, m', e', h'⟩ <;>
    simp [UnpackedFloat.compare, UnpackedFloat.isNaN, place, Prod.Lex.lt_iff, compare_signs,
      Ordering.then_eq_lt, Ordering.then_eq_gt, compare_lt_iff_lt, compare_gt_iff_gt]

theorem compare_eq_eq {a b : UnpackedFloat} : a.compare b = some .eq ↔
    a.isNaN = false ∧ b.isNaN = false ∧ place a = place b := by
  rcases a with (_ | _) | _ | _ | ⟨_ | _, m, e, h⟩ <;>
    rcases b with (_ | _) | _ | _ | ⟨_ | _, m', e', h'⟩ <;>
    simp [UnpackedFloat.compare, UnpackedFloat.isNaN, place, compare_signs]

/-- A number is what it unpacks to. -/
theorem eq_of_unpack {x y : Float} (h : x.toModel.unpack = y.toModel.unpack) : x = y := by
  obtain ⟨⟨a⟩, ha⟩ := x
  obtain ⟨⟨b⟩, hb⟩ := y
  have hpacked := congrArg (pack Format.binary64) h
  rw [Float.Model.unpack, Float.Model.unpack, pack_unpack (by decide) ha, pack_unpack (by decide) hb] at hpacked
  subst hpacked
  rfl

theorem lt_iff_place {x y : Float} : x < y ↔
    x.isNaN = false ∧ y.isNaN = false ∧ place x.toModel.unpack < place y.toModel.unpack := by
  show decide ((_ == _) = true) = true ↔ _
  rw [decide_eq_true_iff, beq_iff_eq]
  exact compare_eq_lt

theorem beq_iff_place {x y : Float} : (x == y) = true ↔
    x.isNaN = false ∧ y.isNaN = false ∧ place x.toModel.unpack = place y.toModel.unpack := by
  show (x.toModel.unpack.compare y.toModel.unpack == some .eq) = true ↔ _
  rw [beq_iff_eq]
  exact compare_eq_eq

/-- A number that is no smaller than one that is no smaller than a third is no smaller than that. -/
theorem not_lt_trans {x y z : Float} (hy : y.isNaN = false) (hxy : ¬ x < y) (hyz : ¬ y < z) :
    ¬ x < z := by
  rw [lt_iff_place] at *
  rintro ⟨hx, hz, hlt⟩
  rcases lt_or_ge (place x.toModel.unpack) (place y.toModel.unpack) with hxy' | hyx
  · exact hxy ⟨hx, hy, hxy'⟩
  · exact hyz ⟨hy, hz, lt_of_le_of_lt hyx hlt⟩

end AdaptiveConsensus.Decimal
