import AdaptiveConsensus.Decimal.Shortest
import AdaptiveConsensus.Proofs.Decimal.Bits
import Mathlib.Algebra.Order.Field.Power
import Mathlib.Algebra.Order.Floor.Semifield
import Mathlib.Data.Int.Log
import Mathlib.Data.Rat.Floor
import Mathlib.Tactic.FieldSimp
import Mathlib.Tactic.Linarith
import Mathlib.Tactic.Positivity
import Mathlib.Tactic.Ring

/-!
# Rounding

A quotient is rounded to a whole number of units of the last bit that is kept of it. What lies in the
neighbourhood of a number is rounded to it.

- `nearest_roundDiv`, `roundDiv_eq`: rounded division is rounding to the nearest whole number.
- `BinaryFormat.nearest_of_contains`: rounding gives the number whose neighbourhood a quotient is in.
-/

namespace AdaptiveConsensus.Decimal

/-! ## Powers with whole exponents -/

theorem cast_twoTo (k : Nat) : (twoTo k : ℚ) = 2 ^ k := by
  exact_mod_cast rfl

theorem cast_tenTo (k : Nat) : (tenTo k : ℚ) = 10 ^ k := by
  exact_mod_cast rfl

/-- A power is a quotient of two powers, one of which is one. -/
theorem zpow_eq_div (base : ℚ) (e : ℤ) :
    base ^ e = base ^ e.toNat / base ^ (-e).toNat := by
  obtain h | h := Int.le_total 0 e
  · rw [Int.toNat_of_nonpos (Int.neg_nonpos_of_nonneg h), pow_zero, div_one, ← zpow_natCast,
      Int.toNat_of_nonneg h]
  · rw [Int.toNat_of_nonpos h, pow_zero, one_div, ← zpow_natCast,
      Int.toNat_of_nonneg (Int.neg_nonneg_of_nonpos h), zpow_neg, inv_inv]

theorem two_zpow (e : ℤ) : (2 : ℚ) ^ e = twoTo e.toNat / twoTo (-e).toNat := by
  rw [cast_twoTo, cast_twoTo, zpow_eq_div]

theorem ten_zpow (e : ℤ) : (10 : ℚ) ^ e = tenTo e.toNat / tenTo (-e).toNat := by
  rw [cast_tenTo, cast_tenTo, zpow_eq_div]

theorem two_zpow_pos (e : ℤ) : (0 : ℚ) < 2 ^ e := zpow_pos two_pos e

theorem ten_zpow_pos (e : ℤ) : (0 : ℚ) < 10 ^ e := zpow_pos (by norm_num) e

/-! ## Rounding to whole numbers -/

/-- The whole number nearest to a quotient; an odd one is nearer than both its neighbours. -/
structure Nearest (r : ℚ) (m : Nat) : Prop where
  low : m - 1 / 2 ≤ r
  high : r ≤ m + 1 / 2
  odd : m % 2 = 1 → m - 1 / 2 < r ∧ r < m + 1 / 2

/-- The same in natural numbers. -/
theorem Nearest.cross {num den m : Nat} (hden : 0 < den) (h : Nearest (num / den) m) :
    2 * (m * den) ≤ 2 * num + den ∧ 2 * num ≤ 2 * (m * den) + den ∧
      (m % 2 = 1 → 2 * (m * den) < 2 * num + den ∧ 2 * num < 2 * (m * den) + den) := by
  have hden' : (0 : ℚ) < den := by exact_mod_cast hden
  obtain ⟨hlow, hhigh, hodd⟩ := h
  rw [le_div_iff₀ hden'] at hlow
  rw [div_le_iff₀ hden'] at hhigh
  rw [lt_div_iff₀ hden', div_lt_iff₀ hden'] at hodd
  have hlow : (2 * (m * den) : ℚ) ≤ 2 * num + den := by linarith
  have hhigh : (2 * num : ℚ) ≤ 2 * (m * den) + den := by linarith
  refine ⟨by exact_mod_cast hlow, by exact_mod_cast hhigh, fun hm => ?_⟩
  obtain ⟨hl, hh⟩ := hodd hm
  have hl : (2 * (m * den) : ℚ) < 2 * num + den := by linarith
  have hh : (2 * num : ℚ) < 2 * (m * den) + den := by linarith
  exact ⟨by exact_mod_cast hl, by exact_mod_cast hh⟩

/-- Rounded division finds the nearest whole number. -/
theorem roundDiv_eq {num den m : Nat} (hden : 0 < den) (h : Nearest (num / den) m) :
    roundDiv num den = m := by
  obtain ⟨hlow, hhigh, hodd⟩ := h.cross hden
  have hparts := Nat.div_add_mod num den
  have hmod := Nat.mod_lt num hden
  rw [Nat.mul_comm] at hparts
  -- the quotient is `m` or the number below it
  have hle : num / den ≤ m := by
    by_contra hlt
    have := Nat.mul_le_mul_right den (Nat.lt_of_not_le hlt)
    rw [Nat.succ_mul] at this
    omega
  have hge : m ≤ num / den + 1 := by
    by_contra hlt
    have := Nat.mul_le_mul_right den (Nat.lt_of_not_le hlt)
    rw [Nat.succ_mul, Nat.succ_mul] at this
    omega
  rw [roundDiv]
  obtain hq | hq : num / den = m ∨ num / den + 1 = m := by omega
  · rw [hq] at hparts ⊢
    by_cases hless : 2 * (num % den) < den
    · rw [if_pos hless]
    · rw [if_neg hless, if_neg (by omega)]
      omega
  · have hm : m * den = num / den * den + den := by rw [← hq, Nat.succ_mul]
    rw [if_neg (by omega)]
    by_cases hmore : den < 2 * (num % den)
    · rw [if_pos hmore, hq]
    · rw [if_neg hmore]
      omega

/-- A quotient is its whole part and a fraction, and what is left over from the division tells on which
side of the middle the fraction is. -/
theorem quotient_parts (num : Nat) {den : Nat} (hden : 0 < den) :
    ∃ fraction : ℚ, (num / den : ℚ) = (num / den : Nat) + fraction ∧ 0 ≤ fraction ∧ fraction < 1 ∧
      (num % den = 0 ↔ fraction = 0) ∧ (2 * (num % den) < den ↔ fraction < 1 / 2) ∧
      (den < 2 * (num % den) ↔ 1 / 2 < fraction) := by
  have hden' : (0 : ℚ) < den := by exact_mod_cast hden
  have hparts : (num : ℚ) = den * (num / den : Nat) + (num % den : Nat) := by
    exact_mod_cast (Nat.div_add_mod num den).symm
  refine ⟨(num % den : Nat) / den, ?_, by positivity, ?_, ?_, ?_, ?_⟩
  · rw [hparts]
    field_simp
  · rw [div_lt_one hden']
    exact_mod_cast Nat.mod_lt num hden
  · rw [div_eq_zero_iff, or_iff_left hden'.ne', Nat.cast_eq_zero]
  · rw [div_lt_div_iff₀ hden' two_pos, one_mul, mul_comm]
    exact_mod_cast Iff.rfl
  · rw [div_lt_div_iff₀ two_pos hden', one_mul, mul_comm]
    exact_mod_cast Iff.rfl

/-- The whole number that rounded division finds is the nearest one. -/
theorem nearest_roundDiv {num den : Nat} (hden : 0 < den) :
    Nearest (num / den) (roundDiv num den) := by
  obtain ⟨fraction, hparts, hnonneg, hlt, -, hless, hmore⟩ := quotient_parts num hden
  rw [roundDiv, hparts]
  generalize num / den = whole
  have hnext : ((whole + 1 : Nat) : ℚ) = whole + 1 := Nat.cast_succ whole
  by_cases hbelow : 2 * (num % den) < den
  · rw [if_pos hbelow]
    have := hless.mp hbelow
    exact ⟨by linarith, by linarith, fun _ => ⟨by linarith, by linarith⟩⟩
  · rw [if_neg hbelow]
    rw [hless, not_lt] at hbelow
    by_cases habove : den < 2 * (num % den)
    · rw [if_pos habove]
      have := hmore.mp habove
      exact ⟨by linarith, by linarith, fun _ => ⟨by linarith, by linarith⟩⟩
    · -- halfway between two whole numbers the even one is taken
      rw [if_neg habove]
      rw [hmore, not_lt] at habove
      obtain heven | hodd := Nat.mod_two_eq_zero_or_one whole
      · rw [heven, Nat.add_zero]
        exact ⟨by linarith, by linarith, fun h => absurd h (by omega)⟩
      · rw [hodd]
        exact ⟨by linarith, by linarith, fun h => absurd h (by omega)⟩

/-- To be nearest is to be half a unit away at most. -/
theorem nearest_iff {r : ℚ} {m : Nat} :
    Nearest r m ↔ |r - m| ≤ 1 / 2 ∧ (m % 2 = 1 → |r - m| < 1 / 2) := by
  simp only [abs_le, abs_lt]
  constructor
  · intro h
    refine ⟨⟨by linarith [h.low], by linarith [h.high]⟩, fun hodd => ?_⟩
    obtain ⟨hlow, hhigh⟩ := h.odd hodd
    exact ⟨by linarith, by linarith⟩
  · rintro ⟨⟨hlow, hhigh⟩, hodd⟩
    refine ⟨by linarith, by linarith, fun h => ?_⟩
    obtain ⟨hlow, hhigh⟩ := hodd h
    exact ⟨by linarith, by linarith⟩

namespace Nearest

variable {r r' : ℚ} {m : Nat}

/-- No whole number is nearer. -/
theorem dist_le (h : Nearest r m) (n : Nat) : |r - m| ≤ |r - n| := by
  obtain rfl | hne := eq_or_ne m n
  · exact le_rfl
  have hapart : (1 : ℚ) ≤ |(m : ℚ) - n| := by
    have : (1 : ℤ) ≤ |(m : ℤ) - n| := Int.one_le_abs (sub_ne_zero.mpr (by exact_mod_cast hne))
    exact_mod_cast this
  have hsplit : |(m : ℚ) - n| ≤ |r - m| + |r - n| := by
    rw [abs_sub_comm r m]
    exact abs_sub_le _ _ _
  linarith [(nearest_iff.mp h).1]

/-- Halfway between two whole numbers the odd one is not nearest. -/
theorem not_next (h : Nearest r m) : ¬ Nearest r (m + 1) := by
  intro h'
  have hnext : ((m + 1 : Nat) : ℚ) = m + 1 := Nat.cast_succ m
  obtain hodd | hodd : m % 2 = 1 ∨ (m + 1) % 2 = 1 := by omega
  · linarith [(h.odd hodd).2, h'.low]
  · linarith [(h'.odd hodd).1, h.high]

theorem unique {n : Nat} (h : Nearest r m) (h' : Nearest r n) : m = n := by
  have hle : m ≤ n + 1 := by
    have : (m : ℚ) ≤ n + 1 := by linarith [h.low, h'.high]
    exact_mod_cast this
  have hge : n ≤ m + 1 := by
    have : (n : ℚ) ≤ m + 1 := by linarith [h.high, h'.low]
    exact_mod_cast this
  obtain rfl | rfl | rfl : m = n ∨ m = n + 1 ∨ n = m + 1 := by omega
  · rfl
  · exact (h'.not_next h).elim
  · exact (h.not_next h').elim

/-- What is no farther from a whole number than something that it is nearest to has it as its nearest
whole number, too. -/
theorem of_dist_le (h : Nearest r m) (hdist : |r' - m| ≤ |r - m|) : Nearest r' m := by
  rw [nearest_iff] at h ⊢
  exact ⟨hdist.trans h.1, fun hodd => hdist.trans_lt (h.2 hodd)⟩

end Nearest

/-- Everything that is not negative has a nearest whole number. -/
theorem exists_nearest_whole {r : ℚ} (hr : 0 ≤ r) : ∃ m, Nearest r m := by
  have hnum : (r.num.toNat : ℚ) = r.num := by
    exact_mod_cast Int.toNat_of_nonneg (Rat.num_nonneg.mpr hr)
  have hnearest : Nearest ((r.num.toNat : Nat) / (r.den : Nat)) (roundDiv r.num.toNat r.den) :=
    nearest_roundDiv r.den_pos
  rw [hnum, Rat.num_div_den] at hnearest
  exact ⟨_, hnearest⟩

/-! ## Rounding to the numbers of a format -/

theorem two_zpow_le_div_iff {num den : Nat} (hden : 0 < den) (e : ℤ) :
    (2 : ℚ) ^ e ≤ num / den ↔
      if 0 ≤ e then den * twoTo e.toNat ≤ num else den ≤ num * twoTo (-e).toNat := by
  have hden' : (0 : ℚ) < den := by exact_mod_cast hden
  have hpos : (0 : ℚ) < twoTo (-e).toNat := by exact_mod_cast twoTo_pos _
  rw [two_zpow, div_le_div_iff₀ hpos hden', mul_comm]
  split
  · rename_i he
    rw [Int.toNat_of_nonpos (Int.neg_nonpos_of_nonneg he)]
    norm_cast
    rw [show twoTo 0 = 1 from rfl, Nat.mul_one]
  · rename_i he
    rw [Int.toNat_of_nonpos (Int.le_of_not_le he)]
    norm_cast
    rw [show twoTo 0 = 1 from rfl, Nat.mul_one]

/-- The logarithm of a quotient is known up to one from the logarithms of its parts. -/
theorem log_div_bounds {num den : Nat} (hnum : 0 < num) (hden : 0 < den) :
    (num.log2 : ℤ) - den.log2 - 1 ≤ Int.log 2 ((num : ℚ) / den) ∧
      Int.log 2 ((num : ℚ) / den) ≤ (num.log2 : ℤ) - den.log2 := by
  have hden' : (0 : ℚ) < den := by exact_mod_cast hden
  have hquotient : (0 : ℚ) < num / den := div_pos (by exact_mod_cast hnum) hden'
  have hnumlow : (2 : ℚ) ^ num.log2 ≤ num := by exact_mod_cast Nat.log2_self_le (Nat.ne_of_gt hnum)
  have hnumhigh : (num : ℚ) < 2 ^ (num.log2 + 1) := by exact_mod_cast Nat.lt_log2_self
  have hdenlow : (2 : ℚ) ^ den.log2 ≤ den := by exact_mod_cast Nat.log2_self_le (Nat.ne_of_gt hden)
  have hdenhigh : (den : ℚ) < 2 ^ (den.log2 + 1) := by exact_mod_cast Nat.lt_log2_self
  constructor
  · rw [← Int.zpow_le_iff_le_log Nat.one_lt_two hquotient, le_div_iff₀ hden']
    calc ((2 : ℕ) : ℚ) ^ ((num.log2 : ℤ) - den.log2 - 1) * den
        ≤ 2 ^ ((num.log2 : ℤ) - den.log2 - 1) * 2 ^ (den.log2 + 1) := by
          rw [Nat.cast_ofNat]
          exact mul_le_mul_of_nonneg_left hdenhigh.le (two_zpow_pos _).le
      _ = 2 ^ num.log2 := by
          rw [← zpow_natCast, ← zpow_natCast, ← zpow_add₀ two_ne_zero]
          congr 1
          push_cast
          ring
      _ ≤ num := hnumlow
  · rw [← Int.lt_add_one_iff, ← Int.lt_zpow_iff_log_lt Nat.one_lt_two hquotient, div_lt_iff₀ hden']
    calc (num : ℚ) < 2 ^ (num.log2 + 1) := hnumhigh
      _ = 2 ^ ((num.log2 : ℤ) - den.log2 + 1) * 2 ^ den.log2 := by
          rw [← zpow_natCast, ← zpow_natCast, ← zpow_add₀ two_ne_zero]
          congr 1
          push_cast
          ring
      _ ≤ ((2 : ℕ) : ℚ) ^ ((num.log2 : ℤ) - den.log2 + 1) * den := by
          rw [Nat.cast_ofNat]
          exact mul_le_mul_of_nonneg_left hdenlow (two_zpow_pos _).le

namespace BinaryFormat

variable (format : BinaryFormat)

/-- The exponent of the last bit that is kept of a quotient. -/
def lastBitOf (r : ℚ) : Int :=
  max (Int.log 2 r - (format.precision - 1 : Nat)) (-(format.depth : Int))

theorem depth_le_lastBitOf (r : ℚ) : -(format.depth : Int) ≤ format.lastBitOf r :=
  le_max_right _ _

/-- The last bit that is kept follows from the leading one. -/
theorem lastBit_eq {num den : Nat} (hnum : 0 < num) (hden : 0 < den) :
    format.lastBit num den = format.lastBitOf ((num : ℚ) / den) := by
  obtain ⟨hlow, hhigh⟩ := log_div_bounds hnum hden
  have hquotient : (0 : ℚ) < num / den :=
    div_pos (by exact_mod_cast hnum) (by exact_mod_cast hden)
  rw [lastBit, lastBitOf]
  congr 2
  generalize (num.log2 : ℤ) - den.log2 = guess at *
  have hreaches : (2 : ℚ) ^ guess ≤ num / den ↔ _ := two_zpow_le_div_iff hden guess
  rw [← Nat.cast_ofNat (R := ℚ), Int.zpow_le_iff_le_log Nat.one_lt_two hquotient] at hreaches
  by_cases h : guess ≤ Int.log 2 ((num : ℚ) / den)
  · rw [if_pos (hreaches.mp h)]
    omega
  · rw [if_neg fun hle => h (hreaches.mpr hle)]
    omega

/-- Rounding scales a quotient so that the last bit that is kept is that of the units. -/
theorem nearest_eq_pattern {num den m : Nat} (hnum : 0 < num) (hden : 0 < den)
    (h : Nearest (num / den / 2 ^ format.lastBit num den) m) :
    format.nearest num den =
      min (format.pattern m (format.lastBit num den)) format.infinityBits := by
  rw [nearest, if_neg (Nat.ne_of_gt hnum), pattern]
  dsimp only
  congr 2
  generalize format.lastBit num den = last at *
  rw [two_zpow] at h
  split <;> rename_i hlast
  · rw [Int.toNat_of_nonpos (Int.neg_nonpos_of_nonneg hlast)] at h
    refine roundDiv_eq (Nat.mul_pos hden (twoTo_pos _)) ?_
    convert h using 1
    rw [show twoTo 0 = 1 from rfl]
    push_cast
    field_simp
  · rw [Int.toNat_of_nonpos (Int.le_of_not_le hlast)] at h
    refine roundDiv_eq hden ?_
    convert h using 1
    rw [show twoTo 0 = 1 from rfl]
    push_cast
    field_simp

end BinaryFormat

/-! ## Neighbourhoods -/

/-- The interval of a neighbourhood. -/
structure Neighbourhood.Contains (n : Neighbourhood) (r : ℚ) : Prop where
  low_le : n.low * 2 ^ n.scale ≤ r
  le_high : r ≤ n.high * 2 ^ n.scale
  strict : n.closed = false → n.low * 2 ^ n.scale < r ∧ r < n.high * 2 ^ n.scale

namespace BinaryFormat

variable {format : BinaryFormat} {mantissa : Nat} {exponent : Int} {r : ℚ}

/-! The parts of a neighbourhood, in units of the last bit of its number. -/

theorem neighbourhood_unit :
    (2 : ℚ) ^ (format.neighbourhood mantissa exponent).scale = 2 ^ exponent / 4 := by
  show (2 : ℚ) ^ (exponent - 2) = 2 ^ exponent / 4
  rw [zpow_sub₀ two_ne_zero]
  norm_num

theorem neighbourhood_value :
    ((format.neighbourhood mantissa exponent).value : ℚ) = 4 * mantissa := by
  exact_mod_cast rfl

theorem neighbourhood_high :
    ((format.neighbourhood mantissa exponent).high : ℚ) = 4 * mantissa + 2 := by
  exact_mod_cast rfl

/-- Below a power of two the gap is half as wide. -/
theorem neighbourhood_low_of_power (hmantissa : mantissa = twoTo (format.precision - 1))
    (hexponent : -(format.depth : Int) < exponent) :
    ((format.neighbourhood mantissa exponent).low : ℚ) = 4 * mantissa - 1 := by
  have hpos : 0 < mantissa := hmantissa ▸ twoTo_pos _
  have hlow : (format.neighbourhood mantissa exponent).low + 1 = 4 * mantissa := by
    show 4 * mantissa - (if _ then 1 else 2) + 1 = _
    rw [if_pos ⟨hmantissa, hexponent⟩]
    omega
  exact eq_sub_of_add_eq (by exact_mod_cast hlow)

theorem neighbourhood_low_of_not_power (hpos : 0 < mantissa)
    (h : ¬ (mantissa = twoTo (format.precision - 1) ∧ -(format.depth : Int) < exponent)) :
    ((format.neighbourhood mantissa exponent).low : ℚ) = 4 * mantissa - 2 := by
  have hlow : (format.neighbourhood mantissa exponent).low + 2 = 4 * mantissa := by
    show 4 * mantissa - (if _ then 1 else 2) + 2 = _
    rw [if_neg h]
    omega
  exact eq_sub_of_add_eq (by exact_mod_cast hlow)

theorem neighbourhood_low_ge (hpos : 0 < mantissa) :
    (4 * mantissa - 2 : ℚ) ≤ (format.neighbourhood mantissa exponent).low := by
  by_cases h : mantissa = twoTo (format.precision - 1) ∧ -(format.depth : Int) < exponent
  · rw [neighbourhood_low_of_power h.1 h.2]
    linarith
  · rw [neighbourhood_low_of_not_power hpos h]

/-- What is in the neighbourhood of a number has the mantissa as its nearest whole number, in units of
its last bit. -/
theorem nearest_mantissa (hpos : 0 < mantissa)
    (h : (format.neighbourhood mantissa exponent).Contains r) :
    Nearest (r / 2 ^ exponent) mantissa := by
  have hunit := two_zpow_pos exponent
  have hgap : (4 * mantissa - 2 : ℚ) ≤ (format.neighbourhood mantissa exponent).low :=
    neighbourhood_low_ge hpos
  obtain ⟨hlow, hhigh, hstrict⟩ := h
  rw [neighbourhood_unit, neighbourhood_high] at hhigh hstrict
  rw [neighbourhood_unit] at hlow
  constructor
  · rw [le_div_iff₀ hunit]
    nlinarith
  · rw [div_le_iff₀ hunit]
    linarith
  · intro hodd
    have hclosed : (format.neighbourhood mantissa exponent).closed = false := by
      show decide (mantissa % 2 = 0) = false
      rw [decide_eq_false_iff_not, hodd]
      exact Nat.one_ne_zero
    obtain ⟨hl, hh⟩ := hstrict hclosed
    rw [lt_div_iff₀ hunit, div_lt_iff₀ hunit]
    constructor
    · nlinarith
    · linarith

/-- A number is in its own neighbourhood. -/
theorem contains_self (hpos : 0 < mantissa) :
    (format.neighbourhood mantissa exponent).Contains (mantissa * 2 ^ exponent) := by
  have hunit := two_zpow_pos exponent
  have hlow : ((format.neighbourhood mantissa exponent).low : ℚ) ≤ 4 * mantissa - 1 := by
    by_cases h : mantissa = twoTo (format.precision - 1) ∧ -(format.depth : Int) < exponent
    · exact (neighbourhood_low_of_power h.1 h.2).le
    · rw [neighbourhood_low_of_not_power hpos h]
      linarith
  have hbelow : (format.neighbourhood mantissa exponent).low *
      2 ^ (format.neighbourhood mantissa exponent).scale < (mantissa * 2 ^ exponent : ℚ) := by
    rw [neighbourhood_unit]
    nlinarith
  have habove : (mantissa * 2 ^ exponent : ℚ) < (format.neighbourhood mantissa exponent).high *
      2 ^ (format.neighbourhood mantissa exponent).scale := by
    rw [neighbourhood_unit, neighbourhood_high]
    linarith
  exact ⟨hbelow.le, habove.le, fun _ => ⟨hbelow, habove⟩⟩

/-- What is in the neighbourhood of a power of two is close to it from below. -/
theorem power_le (hmantissa : mantissa = twoTo (format.precision - 1))
    (hexponent : -(format.depth : Int) < exponent)
    (h : (format.neighbourhood mantissa exponent).Contains r) :
    mantissa - 1 / 4 ≤ r / 2 ^ exponent := by
  have hlow := h.low_le
  rw [neighbourhood_low_of_power hmantissa hexponent, neighbourhood_unit] at hlow
  rw [le_div_iff₀ (two_zpow_pos exponent)]
  linarith

theorem zpow_le_div_iff (hr : 0 < r) (k : ℤ) :
    (2 : ℚ) ^ k ≤ r / 2 ^ exponent ↔ exponent + k ≤ Int.log 2 r := by
  rw [le_div_iff₀ (two_zpow_pos exponent), ← zpow_add₀ two_ne_zero, add_comm k,
    ← Int.zpow_le_iff_le_log Nat.one_lt_two hr, Nat.cast_ofNat]

/-- Twice the least mantissa with a leading bit has the place of this mantissa at the next exponent. -/
theorem pattern_double {last : Int} (hleast : -(format.depth : Int) ≤ last) :
    format.pattern (2 * twoTo (format.precision - 1)) last =
      format.pattern (twoTo (format.precision - 1)) (last + 1) := by
  obtain ⟨place, hplace⟩ : ∃ place : Nat, last + format.depth = place :=
    ⟨_, (Int.toNat_of_nonneg (by omega)).symm⟩
  rw [pattern, pattern, hplace, show last + 1 + format.depth = ((place + 1 : Nat) : ℤ) by omega,
    Int.toNat_natCast, Int.toNat_natCast]
  ring

/-- Rounding what is in the neighbourhood of a number gives the number. -/
theorem nearest_of_contains (hprecision : 0 < format.precision)
    (hcanonical : format.Canonical mantissa exponent) (hmantissa : 0 < mantissa) {num den : Nat}
    (hnum : 0 < num) (hden : 0 < den)
    (h : (format.neighbourhood mantissa exponent).Contains (num / den)) :
    format.nearest num den = min (format.pattern mantissa exponent) format.infinityBits := by
  have hr : (0 : ℚ) < num / den := div_pos (by exact_mod_cast hnum) (by exact_mod_cast hden)
  have hlast := format.lastBit_eq hnum hden
  rw [lastBitOf] at hlast
  have hround := fun m => format.nearest_eq_pattern (m := m) hnum hden
  have hnearest := nearest_mantissa hmantissa h
  have hlog (k : ℤ) : (2 : ℚ) ^ k ≤ num / den / 2 ^ exponent ↔
      exponent + k ≤ Int.log 2 ((num : ℚ) / den) := zpow_le_div_iff hr k
  generalize format.lastBit num den = last at *
  have hleast := hcanonical.least
  obtain hless | rfl | hmore := lt_trichotomy last exponent
  · -- the quotient lies below a power of two, and the number is this power
    have hunit : twoTo (format.precision - 1) ≤ mantissa := by
      obtain hunit | hexponent := hcanonical.leading
      · exact hunit
      · omega
    have hbelow : ¬ (2 : ℚ) ^ ((format.precision - 1 : Nat) : ℤ) ≤ num / den / 2 ^ exponent := by
      rw [hlog]
      omega
    rw [zpow_natCast, ← cast_twoTo, not_le] at hbelow
    have hpower : mantissa = twoTo (format.precision - 1) := by
      refine Nat.le_antisymm ?_ hunit
      by_contra hlt
      have : ((twoTo (format.precision - 1) : ℚ)) + 1 ≤ mantissa := by
        exact_mod_cast Nat.lt_of_not_le hlt
      linarith [hnearest.low]
    have hnarrow := power_le hpower (by omega) h
    have hhalf : (2 : ℚ) ^ ((format.precision - 1 : Nat) - 1 : ℤ) ≤ num / den / 2 ^ exponent := by
      have hone : (1 : ℚ) ≤ mantissa := by exact_mod_cast hmantissa
      rw [zpow_sub_one₀ two_ne_zero, zpow_natCast, ← cast_twoTo, ← hpower]
      linarith
    rw [hlog] at hhalf
    obtain rfl : last = exponent - 1 := by omega
    rw [hround (2 * mantissa)]
    · congr 1
      rw [hpower, pattern_double (by omega), sub_add_cancel]
    · have hdouble : (num / den / 2 ^ (exponent - 1) : ℚ) = 2 * (num / den / 2 ^ exponent) := by
        rw [zpow_sub_one₀ two_ne_zero]
        field_simp
      rw [hdouble]
      rw [← hpower] at hbelow
      constructor
      · push_cast
        linarith
      · push_cast
        linarith
      · omega
  · exact hround _ hnearest
  · -- the quotient would have a leading bit beyond those of the mantissa
    exfalso
    have habove : (2 : ℚ) ^ (format.precision : ℤ) ≤ num / den / 2 ^ exponent := by
      rw [hlog]
      omega
    have hlt : (mantissa : ℚ) + 1 ≤ 2 ^ format.precision := by
      rw [← cast_twoTo]
      exact_mod_cast hcanonical.mantissa_lt
    rw [zpow_natCast] at habove
    linarith [hnearest.high]

end BinaryFormat

end AdaptiveConsensus.Decimal
