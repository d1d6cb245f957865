import AdaptiveConsensus.Proofs.Decimal.Rounding
import Mathlib.Tactic.NormNum

/-!
# The shortest decimal of a number

The search for the shortest decimal stops at a point of the neighbourhood of the number, since every
grid on which it stops has one, and it does stop: a grid finer than the neighbourhood is wide has a
point in it (`Neighbourhood.onGrid_isSome`), and with seventeen digits a grid is as fine as that.

- `Number.value`: the exact value of a decimal.
- `BinaryFormat.contains_shortest`: the shortest decimal of a number is in its neighbourhood.
-/

namespace AdaptiveConsensus.Decimal

/-! ## Decimals -/

/-- The exact value of a decimal. -/
def Number.value (d : Number) : ℚ :=
  d.coefficient * 10 ^ d.exponent

theorem digitCount_pos (n : Nat) : 0 < digitCount n :=
  Nat.length_toDigits_pos

theorem lt_pow_digitCount (n : Nat) : n < 10 ^ digitCount n :=
  (Nat.length_toDigits_le_iff (by decide) (digitCount_pos n)).mp (Nat.le_refl _)

theorem pow_digitCount_le {n : Nat} (hn : 0 < n) : 10 ^ (digitCount n - 1) ≤ n := by
  by_cases hone : digitCount n - 1 = 0
  · rw [hone]
    exact hn
  · by_contra hlt
    have := (Nat.length_toDigits_le_iff (b := 10) (by decide) (Nat.pos_of_ne_zero hone)).mpr
      (Nat.lt_of_not_le hlt)
    change digitCount n ≤ digitCount n - 1 at this
    omega

/-- Dropped zeros go into the exponent. -/
theorem Number.value_dropZeros (steps : Nat) (d : Number) : (dropZeros steps d).value = d.value := by
  induction steps generalizing d with
  | zero => rfl
  | succ steps ih =>
    rw [dropZeros]
    by_cases hdrop : d.coefficient ≠ 0 ∧ d.coefficient % 10 = 0
    · rw [if_pos hdrop, ih]
      have hcoefficient : (d.coefficient : ℚ) = 10 * (d.coefficient / 10 : Nat) := by
        exact_mod_cast (Nat.mul_div_cancel' (Nat.dvd_of_mod_eq_zero hdrop.2)).symm
      rw [value, value, zpow_add_one₀ (by norm_num), hcoefficient]
      ring
    · rw [if_neg hdrop]

namespace Neighbourhood

variable (n : Neighbourhood) (tie : Tie) (g : Int)

/-! ## One grid -/

/-- The unit of a neighbourhood and the step of a grid as multiples of one number. -/
theorem common_unit : ∃ c : ℚ, 0 < c ∧
    2 ^ n.scale = (twoTo n.scale.toNat * tenTo (-g).toNat : Nat) * c ∧
    10 ^ g = (tenTo g.toNat * twoTo (-n.scale).toNat : Nat) * c := by
  have htwo (k : Nat) : (0 : ℚ) < twoTo k := by
    rw [cast_twoTo]
    positivity
  have hten (k : Nat) : (0 : ℚ) < tenTo k := by
    rw [cast_tenTo]
    positivity
  have htwo' := (htwo (-n.scale).toNat).ne'
  have hten' := (hten (-g).toNat).ne'
  refine ⟨1 / (twoTo (-n.scale).toNat * tenTo (-g).toNat), ?_, ?_, ?_⟩
  · exact one_div_pos.mpr (mul_pos (htwo _) (hten _))
  · rw [two_zpow]
    push_cast
    field_simp
  · rw [ten_zpow]
    push_cast
    field_simp

theorem contains_iff (r : ℚ) :
    n.Contains r ↔ if n.closed then n.low * 2 ^ n.scale ≤ r ∧ r ≤ n.high * 2 ^ n.scale
      else n.low * 2 ^ n.scale < r ∧ r < n.high * 2 ^ n.scale := by
  cases hclosed : n.closed with
  | true => exact ⟨fun h => ⟨h.low_le, h.le_high⟩, fun h => ⟨h.1, h.2, by rw [hclosed]; nofun⟩⟩
  | false => exact ⟨fun h => h.strict hclosed, fun h => ⟨h.1.le, h.2.le, fun _ => h⟩⟩

/-- The test of a grid point is whether the neighbourhood has it. -/
theorem inside_iff {ours theirs : Nat} {c : ℚ} (hc : 0 < c) (hours : 2 ^ n.scale = ours * c)
    (htheirs : 10 ^ g = theirs * c) (k : Nat) :
    (if n.closed then n.low * ours ≤ k * theirs && k * theirs ≤ n.high * ours
      else n.low * ours < k * theirs && k * theirs < n.high * ours : Bool) = true ↔
      n.Contains (k * 10 ^ g) := by
  have hle (a b : Nat) : (a * c ≤ b * c) ↔ a ≤ b := by
    rw [mul_le_mul_iff_of_pos_right hc, Nat.cast_le]
  have hlt (a b : Nat) : (a * c < b * c) ↔ a < b := by
    rw [mul_lt_mul_iff_of_pos_right hc, Nat.cast_lt]
  rw [contains_iff, hours, htheirs, ← mul_assoc, ← mul_assoc, ← mul_assoc]
  norm_cast
  rw [hle, hle, hlt, hlt]
  cases n.closed <;> simp

/-- Whatever a grid finds is in the neighbourhood. -/
theorem onGrid_contains {d : Number} (h : n.onGrid tie g = some d) : n.Contains d.value := by
  obtain ⟨c, hc, hours, htheirs⟩ := n.common_unit g
  have hinside := n.inside_iff g hc hours htheirs
  unfold onGrid at h
  extract_lets ours theirs below inside at h
  change ∀ k, inside k = true ↔ _ at hinside
  split at h
  · rename_i hbelow
    split at h <;> cases h
    · rename_i hraised
      rw [Bool.and_eq_true] at hraised
      exact (hinside _).mp hraised.2
    · exact (hinside _).mp hbelow
  · split at h <;> cases h
    exact (hinside _).mp ‹_›

/-- A grid that is finer than the neighbourhood is wide has a point in it: of the two points beside the
value, the lower one is below the upper end and the upper one is above the lower end. -/
theorem onGrid_isSome (hlow : n.low < n.value) (hhigh : n.value < n.high)
    (hwidth : 10 ^ g < (n.high - n.low) * (2 : ℚ) ^ n.scale) : (n.onGrid tie g).isSome = true := by
  obtain ⟨c, hc, hours, htheirs⟩ := n.common_unit g
  have hinside := n.inside_iff g hc hours htheirs
  have hpos : 0 < tenTo g.toNat * twoTo (-n.scale).toNat :=
    Nat.mul_pos (Nat.pow_pos (by decide)) (twoTo_pos _)
  have hscale := two_zpow_pos n.scale
  unfold onGrid
  extract_lets ours theirs below inside
  change ∀ k, inside k = true ↔ _ at hinside
  change 0 < theirs at hpos
  have hfloor : (below * 10 ^ g : ℚ) ≤ n.value * 2 ^ n.scale := by
    rw [hours, htheirs, ← mul_assoc, ← mul_assoc, mul_le_mul_iff_of_pos_right hc]
    exact_mod_cast Nat.div_mul_le_self _ _
  have hceil : (n.value * 2 ^ n.scale : ℚ) < (below + 1 : Nat) * 10 ^ g := by
    rw [hours, htheirs, ← mul_assoc, ← mul_assoc, mul_lt_mul_iff_of_pos_right hc]
    exact_mod_cast Nat.lt_mul_of_div_lt (Nat.lt_succ_self _) hpos
  have hlow' : (n.low * 2 ^ n.scale : ℚ) < n.value * 2 ^ n.scale :=
    mul_lt_mul_of_pos_right (by exact_mod_cast hlow) hscale
  have hhigh' : (n.value * 2 ^ n.scale : ℚ) < n.high * 2 ^ n.scale :=
    mul_lt_mul_of_pos_right (by exact_mod_cast hhigh) hscale
  have hopen {k : Nat} (hl : (n.low * 2 ^ n.scale : ℚ) < k * 10 ^ g)
      (hh : (k * 10 ^ g : ℚ) < n.high * 2 ^ n.scale) : inside k = true :=
    (hinside k).mpr ⟨hl.le, hh.le, fun _ => ⟨hl, hh⟩⟩
  by_cases hbelow : inside below = true
  · rw [if_pos hbelow]
    split <;> rfl
  · rw [if_neg hbelow, if_pos]
    · rfl
    · -- the point below the value is out on the low side, and the other is one step above it
      refine hopen (hlow'.trans hceil) ?_
      have hout : (below * 10 ^ g : ℚ) ≤ n.low * 2 ^ n.scale := by
        by_contra hlt
        exact hbelow (hopen (not_le.mp hlt) (hfloor.trans_lt hhigh'))
      push_cast
      linarith

/-! ## The search -/

/-- Whatever the search finds is in the neighbourhood. -/
theorem search_contains {d : Number} (count : Nat) {g : Int} (h : n.search tie count g = some d) :
    n.Contains d.value := by
  induction count generalizing g with
  | zero => cases h
  | succ count ih =>
    rw [search] at h
    split at h
    · rename_i hgrid
      cases h
      exact n.onGrid_contains tie g hgrid
    · exact ih h

/-- The search stops at the last grid if not before. -/
theorem search_isSome (count : Nat) {g : Int}
    (h : (n.onGrid tie (g - count)).isSome = true) : (n.search tie (count + 1) g).isSome = true := by
  induction count generalizing g with
  | zero =>
    rw [Nat.cast_zero, Int.sub_zero] at h
    obtain ⟨d, hd⟩ := Option.isSome_iff_exists.mp h
    rw [search, hd]
    rfl
  | succ count ih =>
    rw [search]
    split
    · rfl
    · refine ih ?_
      rwa [show g - 1 - (count : ℤ) = g - (count + 1 : Nat) by push_cast; ring]

/-- The decimal point is not beyond the leading digit of the value. -/
theorem pow_decimalPoint_le (hvalue : 0 < n.value) :
    (10 : ℚ) ^ (n.decimalPoint - 1) ≤ n.value * 2 ^ n.scale := by
  have hden := twoTo_pos (-n.scale).toNat
  have hnum : 0 < n.value * twoTo n.scale.toNat := Nat.mul_pos hvalue (twoTo_pos _)
  have hquotient : (n.value * 2 ^ n.scale : ℚ) =
      (n.value * twoTo n.scale.toNat : Nat) / (twoTo (-n.scale).toNat : Nat) := by
    rw [two_zpow]
    push_cast
    ring
  rw [hquotient, le_div_iff₀ (by exact_mod_cast hden), decimalPoint]
  generalize n.value * twoTo n.scale.toNat = num at *
  generalize twoTo (-n.scale).toNat = den at *
  by_cases hle : den ≤ num
  · have hdigits := digitCount_pos (num / den)
    have hwhole := (Nat.le_div_iff_mul_le hden).mp (pow_digitCount_le (Nat.div_pos hle hden))
    rw [if_pos hle, show (digitCount (num / den) : ℤ) - 1 = (digitCount (num / den) - 1 : Nat) by omega,
      zpow_natCast]
    exact_mod_cast hwhole
  · have hzeros := (Nat.div_lt_iff_lt_mul hnum).mp (lt_pow_digitCount ((den - 1) / num))
    have hcross : den ≤ 10 ^ digitCount ((den - 1) / num) * num := by omega
    rw [if_neg hle, show (1 : ℤ) - digitCount ((den - 1) / num) - 1 = -digitCount ((den - 1) / num) by
      omega, zpow_neg, zpow_natCast, inv_mul_le_iff₀ (by positivity)]
    exact_mod_cast hcross

end Neighbourhood

namespace BinaryFormat

variable {format : BinaryFormat} {mantissa : Nat} {exponent : Int}

/-- Seventeen digits suffice: with so many the grid is finer than the neighbourhood is wide. -/
theorem seventeen_digits (hprecision : format.precision ≤ 53)
    (hcanonical : format.Canonical mantissa exponent) (hmantissa : 0 < mantissa) :
    (10 : ℚ) ^ ((format.neighbourhood mantissa exponent).decimalPoint - 17) <
      ((format.neighbourhood mantissa exponent).high - (format.neighbourhood mantissa exponent).low) *
        2 ^ (format.neighbourhood mantissa exponent).scale := by
  have hunit := two_zpow_pos exponent
  have hpoint := (format.neighbourhood mantissa exponent).pow_decimalPoint_le
    (show 0 < 4 * mantissa by omega)
  rw [neighbourhood_unit, neighbourhood_value] at hpoint
  rw [neighbourhood_unit, neighbourhood_high,
    show ∀ p : ℤ, p - 17 = p - 1 - 16 by intro p; ring, zpow_sub₀ (by norm_num)]
  generalize (10 : ℚ) ^ ((format.neighbourhood mantissa exponent).decimalPoint - 1) = leading at *
  have hten : (10 : ℚ) ^ (16 : ℤ) = 10000000000000000 := by norm_num
  rw [hten, div_lt_iff₀ (by norm_num)]
  -- in units of the last bit the step of the grid is below `mantissa / 10^16`
  by_cases hpower : mantissa = twoTo (format.precision - 1) ∧ -(format.depth : Int) < exponent
  · have hmantissa' : (mantissa : ℚ) ≤ 4503599627370496 := by
      have hbits : twoTo (format.precision - 1) ≤ twoTo 52 :=
        Nat.pow_le_pow_right (by decide) (by omega)
      rw [hpower.1]
      exact_mod_cast hbits
    rw [neighbourhood_low_of_power hpower.1 hpower.2]
    nlinarith
  · have hmantissa' : (mantissa : ℚ) ≤ 9007199254740992 := by
      have hbits : twoTo format.precision ≤ twoTo 53 := Nat.pow_le_pow_right (by decide) hprecision
      exact_mod_cast hcanonical.mantissa_lt.le.trans hbits
    rw [neighbourhood_low_of_not_power hmantissa hpower]
    nlinarith

/-- The shortest decimal of a number is in its neighbourhood. -/
theorem contains_shortest (hprecision : format.precision ≤ 53)
    (hcanonical : format.Canonical mantissa exponent) (hmantissa : 0 < mantissa) (tie : Tie) :
    (format.neighbourhood mantissa exponent).Contains (format.shortest tie mantissa exponent).value := by
  have hnarrow : (format.neighbourhood mantissa exponent).low <
      (format.neighbourhood mantissa exponent).value := by
    show 4 * mantissa - (if _ then 1 else 2) < 4 * mantissa
    split <;> omega
  have hwide : (format.neighbourhood mantissa exponent).value <
      (format.neighbourhood mantissa exponent).high := by
    show 4 * mantissa < 4 * mantissa + 2
    omega
  rw [shortest, if_neg (Nat.ne_of_gt hmantissa), Neighbourhood.shortest, Number.value_dropZeros]
  have hlast := Neighbourhood.onGrid_isSome _ tie _ hnarrow hwide
    (seventeen_digits hprecision hcanonical hmantissa)
  generalize format.neighbourhood mantissa exponent = n at *
  obtain ⟨d, hd⟩ := Option.isSome_iff_exists.mp
    (n.search_isSome tie 16 (g := n.decimalPoint - 1) (by
      rwa [show n.decimalPoint - 1 - ((16 : Nat) : ℤ) = n.decimalPoint - 17 by omega]))
  rw [hd]
  exact n.search_contains tie 17 hd

end BinaryFormat

end AdaptiveConsensus.Decimal
