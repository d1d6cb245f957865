import AdaptiveConsensus.Proofs.Decimal.Rounding

/-!
# The nearest number

The numbers of a format come in the order of their patterns, and of all of them rounding finds the
nearest one. So what is rounded keeps its order.

- `BinaryFormat.Canonical.pattern_lt_iff`: numbers come in the order of their patterns.
- `BinaryFormat.Rounded.isNearest`: no number is nearer than the one that rounding finds.
- `BinaryFormat.Rounded.mono`: rounding keeps the order.
- `BinaryFormat.nearest_eq_of_rounded`: the pattern that rounding finds.
-/

namespace AdaptiveConsensus.Decimal

namespace BinaryFormat

variable {format : BinaryFormat} {m m' : Nat} {e e' : Int} {r r' : ℚ}

/-! ## The order of numbers in canonical form -/

/-- A number in canonical form whose last bit is below a unit is below the least normal number of that
unit. -/
theorem Canonical.lt_power {last : Int} (hprecision : 0 < format.precision)
    (h : format.Canonical m e) (hless : e < last) :
    (m * 2 ^ e : ℚ) < twoTo (format.precision - 1) * 2 ^ last := by
  have hm : (m : ℚ) < 2 ^ format.precision := by
    rw [← cast_twoTo]
    exact_mod_cast h.mantissa_lt
  calc (m * 2 ^ e : ℚ) < 2 ^ format.precision * 2 ^ e := mul_lt_mul_of_pos_right hm (two_zpow_pos e)
    _ = 2 ^ (format.precision + e) := by rw [zpow_add₀ two_ne_zero, zpow_natCast]
    _ ≤ 2 ^ ((format.precision - 1 : Nat) + last) := zpow_le_zpow_right₀ one_le_two (by omega)
    _ = twoTo (format.precision - 1) * 2 ^ last := by
      rw [zpow_add₀ two_ne_zero, zpow_natCast, cast_twoTo]

/-- Of two numbers in canonical form, one with the smaller exponent comes first, as a number and as a
pattern. -/
theorem Canonical.lt_of_exponent_lt (hprecision : 0 < format.precision) (h : format.Canonical m e)
    (h' : format.Canonical m' e') (hlt : e < e') :
    format.pattern m e < format.pattern m' e' ∧ (m * 2 ^ e : ℚ) < m' * 2 ^ e' := by
  have hleading := h'.leading.resolve_right (by have := h.least; omega)
  constructor
  · obtain ⟨place, hplace⟩ : ∃ place : Nat, e + format.depth = place :=
      ⟨_, (Int.toNat_of_nonneg (by have := h.least; omega)).symm⟩
    obtain ⟨more, hmore⟩ : ∃ more : Nat, e' + format.depth = (place + 1 + more : Nat) :=
      ⟨(e' - e - 1).toNat, by omega⟩
    have hm := h.mantissa_lt
    rw [twoTo_precision hprecision] at hm
    have := Nat.zero_le (more * twoTo (format.precision - 1))
    rw [pattern, pattern, hplace, hmore, Int.toNat_natCast, Int.toNat_natCast, Nat.add_mul, Nat.add_mul]
    omega
  · refine (h.lt_power hprecision hlt).trans_le (mul_le_mul_of_nonneg_right ?_ (two_zpow_pos e').le)
    exact_mod_cast hleading

/-- Numbers in canonical form are compared by their exponents first. -/
theorem Canonical.lt_iff (hprecision : 0 < format.precision) (h : format.Canonical m e)
    (h' : format.Canonical m' e') :
    (m * 2 ^ e : ℚ) < m' * 2 ^ e' ↔ e < e' ∨ e = e' ∧ m < m' := by
  obtain hless | rfl | hmore := lt_trichotomy e e'
  · exact iff_of_true (h.lt_of_exponent_lt hprecision h' hless).2 (.inl hless)
  · rw [mul_lt_mul_iff_of_pos_right (two_zpow_pos e), Nat.cast_lt]
    exact ⟨fun hm => .inr ⟨rfl, hm⟩, fun hor => hor.elim (fun hlt => (lt_irrefl _ hlt).elim) And.right⟩
  · refine iff_of_false (h'.lt_of_exponent_lt hprecision h hmore).2.asymm ?_
    omega

/-- The patterns count the numbers. -/
theorem Canonical.pattern_lt_iff (hprecision : 0 < format.precision) (h : format.Canonical m e)
    (h' : format.Canonical m' e') :
    format.pattern m e < format.pattern m' e' ↔ (m * 2 ^ e : ℚ) < m' * 2 ^ e' := by
  rw [h.lt_iff hprecision h']
  obtain hless | rfl | hmore := lt_trichotomy e e'
  · exact iff_of_true (h.lt_of_exponent_lt hprecision h' hless).1 (.inl hless)
  · rw [pattern, pattern, Nat.add_lt_add_iff_left]
    omega
  · refine iff_of_false (h'.lt_of_exponent_lt hprecision h hmore).1.asymm ?_
    omega

/-! ## Rounding to a format -/

/-- A rounded mantissa of one bit more than fits is a power of two: it is the least one of the next
exponent. -/
def carry (format : BinaryFormat) (m : Nat) (last : Int) : Nat × Int :=
  if m = twoTo format.precision then (twoTo (format.precision - 1), last + 1) else (m, last)

theorem carry_spec {last : Int} (hprecision : 0 < format.precision)
    (hleast : -(format.depth : Int) ≤ last) (hhigh : m ≤ twoTo format.precision)
    (hleading : twoTo (format.precision - 1) ≤ m ∨ last = -(format.depth : Int)) :
    format.Canonical (format.carry m last).1 (format.carry m last).2 ∧
      format.pattern (format.carry m last).1 (format.carry m last).2 = format.pattern m last ∧
      ((format.carry m last).1 * 2 ^ (format.carry m last).2 : ℚ) = m * 2 ^ last := by
  obtain hlt | rfl := Nat.lt_or_eq_of_le hhigh
  · rw [carry, if_neg (Nat.ne_of_lt hlt)]
    exact ⟨⟨hleast, hlt, hleading⟩, rfl, rfl⟩
  · have hdouble := twoTo_precision hprecision
    have hunit : 0 < twoTo (format.precision - 1) := twoTo_pos _
    rw [carry, if_pos rfl]
    refine ⟨⟨by omega, by omega, .inl le_rfl⟩, ?_, ?_⟩
    · rw [hdouble, pattern_double hleast]
    · rw [hdouble, zpow_add_one₀ two_ne_zero]
      push_cast
      ring

/-- What a positive quotient is rounded to: a whole number of units of the last bit that is kept. -/
def Rounded (format : BinaryFormat) (r : ℚ) (m : Nat) (e : Int) : Prop :=
  ∃ whole, Nearest (r / 2 ^ format.lastBitOf r) whole ∧ format.carry whole (format.lastBitOf r) = (m, e)

theorem exists_rounded (hr : 0 < r) : ∃ m e, format.Rounded r m e := by
  obtain ⟨whole, hwhole⟩ :=
    exists_nearest_whole (div_pos hr (two_zpow_pos (format.lastBitOf r))).le
  exact ⟨_, _, whole, hwhole, rfl⟩

/-- A quotient is rounded to one number. -/
theorem Rounded.unique (h : format.Rounded r m e) (h' : format.Rounded r m' e') : m = m' ∧ e = e' := by
  obtain ⟨whole, hwhole, hcarry⟩ := h
  obtain ⟨whole', hwhole', hcarry'⟩ := h'
  rw [hwhole.unique hwhole', hcarry'] at hcarry
  cases hcarry
  exact ⟨rfl, rfl⟩

/-- A quotient has no bit beyond those that a mantissa keeps, and as many bits unless it is among the
least. -/
theorem scaled_bounds (hprecision : 0 < format.precision) (hr : 0 < r) :
    r / 2 ^ format.lastBitOf r < twoTo format.precision ∧
      (format.lastBitOf r ≠ -(format.depth : ℤ) →
        (twoTo (format.precision - 1) : ℚ) ≤ r / 2 ^ format.lastBitOf r) := by
  have hlog (k : ℤ) : (2 : ℚ) ^ k ≤ r / 2 ^ format.lastBitOf r ↔
      format.lastBitOf r + k ≤ Int.log 2 r := zpow_le_div_iff hr k
  rw [cast_twoTo, cast_twoTo, ← zpow_natCast, ← zpow_natCast, ← not_le, hlog, hlog, lastBitOf]
  omega

theorem whole_bounds (hprecision : 0 < format.precision) (hr : 0 < r) {whole : Nat}
    (h : Nearest (r / 2 ^ format.lastBitOf r) whole) :
    whole ≤ twoTo format.precision ∧
      (twoTo (format.precision - 1) ≤ whole ∨ format.lastBitOf r = -(format.depth : ℤ)) := by
  obtain ⟨hbelow, habove⟩ := scaled_bounds hprecision hr
  constructor
  · have : (whole : ℚ) < twoTo format.precision + 1 := by linarith [h.low]
    exact Nat.lt_succ_iff.mp (by exact_mod_cast this)
  · refine or_iff_not_imp_right.mpr fun hne => ?_
    have : (twoTo (format.precision - 1) : ℚ) < whole + 1 := by linarith [habove hne, h.high]
    exact Nat.lt_succ_iff.mp (by exact_mod_cast this)

/-- A number of a format than which none is nearer. -/
structure IsNearest (format : BinaryFormat) (r : ℚ) (m : Nat) (e : Int) : Prop where
  canonical : format.Canonical m e
  dist_le : ∀ k f, format.Canonical k f → |r - m * 2 ^ e| ≤ |r - k * 2 ^ f|

/-- A number whose last bit is not below a unit is a multiple of this unit. -/
theorem exists_multiple {last : Int} (h : last ≤ e) : ∃ n : Nat, (m * 2 ^ e : ℚ) = n * 2 ^ last := by
  obtain ⟨k, rfl⟩ := Int.le.dest h
  refine ⟨m * 2 ^ k, ?_⟩
  rw [zpow_add₀ two_ne_zero, zpow_natCast]
  push_cast
  ring

/-- Rounding finds a number than which none is nearer. -/
theorem Rounded.isNearest (hprecision : 0 < format.precision) (hr : 0 < r)
    (h : format.Rounded r m e) : format.IsNearest r m e := by
  obtain ⟨whole, hwhole, hcarry⟩ := h
  obtain ⟨hhigh, hleading⟩ := whole_bounds hprecision hr hwhole
  have hleast := format.depth_le_lastBitOf r
  obtain ⟨hcanonical, -, hvalue⟩ := carry_spec hprecision hleast hhigh hleading
  have habove := (scaled_bounds hprecision hr).2
  rw [hcarry] at hcanonical hvalue
  generalize format.lastBitOf r = last at *
  have hunit := two_zpow_pos last
  have hdist (n : Nat) : |r - whole * 2 ^ last| ≤ |r - n * 2 ^ last| := by
    have := mul_le_mul_of_nonneg_right (hwhole.dist_le n) hunit.le
    rwa [← abs_of_pos hunit, ← abs_mul, ← abs_mul, abs_of_pos hunit, sub_mul, sub_mul,
      div_mul_cancel₀ _ hunit.ne'] at this
  refine ⟨hcanonical, fun k f hother => ?_⟩
  dsimp only at hvalue
  rw [hvalue]
  obtain hle | hless := le_or_gt last f
  · obtain ⟨n, hn⟩ := exists_multiple (m := k) hle
    rw [hn]
    exact hdist n
  · -- a number with a finer last bit is below the power of two that the quotient has reached
    have hpower := habove (by have := hother.least; omega)
    rw [le_div_iff₀ hunit] at hpower
    have hlt := hother.lt_power hprecision hless
    calc |r - whole * 2 ^ last| ≤ |r - twoTo (format.precision - 1) * 2 ^ last| := hdist _
      _ ≤ |r - k * 2 ^ f| := by
        rw [abs_of_nonneg (by linarith), abs_of_nonneg (by linarith)]
        linarith

/-- A number of the format is nearest to itself. -/
theorem IsNearest.eq_self (h : format.IsNearest r m e) (h' : format.Canonical m' e')
    (hr : r = m' * 2 ^ e') : (m * 2 ^ e : ℚ) = r := by
  have hdist := h.dist_le m' e' h'
  rw [hr, sub_self, abs_zero, abs_nonpos_iff, sub_eq_zero] at hdist
  rw [hr, hdist]

/-- What is nearest keeps the order. -/
theorem IsNearest.mono (h : format.IsNearest r m e) (h' : format.IsNearest r' m' e') (hlt : r < r') :
    (m * 2 ^ e : ℚ) ≤ m' * 2 ^ e' := by
  by_contra hmore
  rw [not_le] at hmore
  -- the two numbers would be crossed over, each farther from its quotient than the other
  have hdist := h.dist_le m' e' h'.canonical
  have hdist' := h'.dist_le m e h.canonical
  rw [← sq_le_sq] at hdist hdist'
  nlinarith

theorem Rounded.mono (hprecision : 0 < format.precision) (hr : 0 < r) (hle : r ≤ r')
    (h : format.Rounded r m e) (h' : format.Rounded r' m' e') : (m * 2 ^ e : ℚ) ≤ m' * 2 ^ e' := by
  obtain hlt | rfl := hle.lt_or_eq
  · exact (h.isNearest hprecision hr).mono (h'.isNearest hprecision (hr.trans hlt)) hlt
  · obtain ⟨rfl, rfl⟩ := h.unique h'
    exact le_rfl

/-- Rounding finds the pattern of the rounded number. -/
theorem nearest_eq_of_rounded (hprecision : 0 < format.precision) {num den : Nat} (hnum : 0 < num)
    (hden : 0 < den) (h : format.Rounded (num / den) m e) :
    format.nearest num den = min (format.pattern m e) format.infinityBits := by
  obtain ⟨whole, hwhole, hcarry⟩ := h
  have hr : (0 : ℚ) < num / den := div_pos (by exact_mod_cast hnum) (by exact_mod_cast hden)
  obtain ⟨hhigh, hleading⟩ := whole_bounds hprecision hr hwhole
  obtain ⟨-, hpattern, -⟩ := carry_spec hprecision (format.depth_le_lastBitOf _) hhigh hleading
  rw [hcarry] at hpattern
  rw [← format.lastBit_eq hnum hden] at hwhole hpattern
  rw [format.nearest_eq_pattern hnum hden hwhole, ← hpattern]

end BinaryFormat

/-! ## The range of the 64-bit format -/

/-- A number of the 64-bit format is finite if it is below `2^1024`. -/
theorem finite64_iff {m : Nat} {e : Int} (h : binary64.Canonical m e) :
    binary64.pattern m e < binary64.infinityBits ↔ (m * 2 ^ e : ℚ) < 2 ^ (1024 : ℤ) := by
  have hbound : binary64.Canonical (twoTo 52) 972 := ⟨by decide, by decide, .inl le_rfl⟩
  rw [show binary64.infinityBits = binary64.pattern (twoTo 52) 972 from rfl,
    h.pattern_lt_iff (by decide) hbound, cast_twoTo, ← zpow_natCast, ← zpow_add₀ two_ne_zero]
  rfl

/-- The finite numbers of the 64-bit format end well before `2^1024`. -/
theorem le_largest64 {m : Nat} {e : Int} (h : binary64.Canonical m e)
    (hfinite : binary64.pattern m e < binary64.infinityBits) :
    (m * 2 ^ e : ℚ) ≤ 2 ^ (1024 : ℤ) - 2 := by
  have hlargest : binary64.Canonical (twoTo 53 - 1) 971 := ⟨by decide, by decide, .inl (by decide)⟩
  have hle : ¬ (((twoTo 53 - 1 : Nat) : ℚ) * 2 ^ (971 : ℤ) < m * 2 ^ e) := by
    rw [← hlargest.pattern_lt_iff (by decide) h]
    have : binary64.pattern (twoTo 53 - 1) 971 + 1 = binary64.infinityBits := by decide
    omega
  refine (not_lt.mp hle).trans ?_
  have hmantissa : ((twoTo 53 - 1 : Nat) : ℚ) = 2 ^ (53 : ℤ) - 1 := by norm_num [twoTo]
  have hlarge : (2 : ℚ) ^ (1 : ℤ) ≤ 2 ^ (971 : ℤ) := zpow_le_zpow_right₀ one_le_two (by decide)
  rw [zpow_one] at hlarge
  rw [hmantissa, sub_mul, one_mul, ← zpow_add₀ two_ne_zero]
  exact sub_le_sub_left hlarge _

end AdaptiveConsensus.Decimal
