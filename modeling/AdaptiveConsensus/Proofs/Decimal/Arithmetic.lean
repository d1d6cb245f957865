import AdaptiveConsensus.Proofs.Decimal.Values

/-!
# Products and quotients

The product and the quotient of two numbers is the number nearest to the exact one. Digits that a mantissa
cannot keep are dropped one by one; two residual bits keep what rounding needs to know of them.

- `Represents`: what a mantissa with its residual bits stands for.
- `roundWithAccuracy_eq`: rounding such a mantissa rounds what it stands for.
- `value?_mul`, `value?_div`: products and quotients of numbers that are not negative.
-/

namespace AdaptiveConsensus.Decimal

open Float.Model (UnpackedFloat Format totalExponent)
open Float.Model.UnpackedFloat (Sign unpack pack ExtendedMantissa Accuracy accuracyOfFraction divCore
  roundWithAccuracy shiftToExponent shiftToTargetExponent)

/-! ## Mantissas with residual bits -/

/-- A mantissa with its round bit, which is worth half a unit. -/
def halves (em : ExtendedMantissa) : ℚ :=
  em.mantissa + if em.roundBit then 1 / 2 else 0

/-- A mantissa with residual bits stands for a number of less than half a unit more than it says, and for
just what it says if the sticky bit is not set. -/
structure Represents (em : ExtendedMantissa) (q : ℚ) : Prop where
  low : halves em ≤ q
  high : q < halves em + 1 / 2
  exact : em.stickyBit = false ↔ q = halves em

namespace Represents

variable {em : ExtendedMantissa} {q : ℚ}

theorem bounds (h : Represents em q) : em.mantissa ≤ q ∧ q < em.mantissa + 1 := by
  obtain ⟨hlow, hhigh, -⟩ := h
  rw [halves] at hlow hhigh
  cases h : em.roundBit <;> rw [h] at hlow hhigh
  · rw [if_neg Bool.false_ne_true] at hlow hhigh
    constructor <;> linarith
  · rw [if_pos rfl] at hlow hhigh
    constructor <;> linarith

/-- A dropped digit is kept by the residual bits, as far as they can. -/
theorem shiftRightOne (h : Represents em q) : Represents em.shiftRightOne (q / 2) := by
  obtain ⟨hmantissa, hnext⟩ := h.bounds
  have hhalves : halves em.shiftRightOne = em.mantissa / 2 := by
    have hparts : (em.mantissa : ℚ) = 2 * (em.mantissa / 2 : Nat) + (em.mantissa % 2 : Nat) := by
      exact_mod_cast (Nat.div_add_mod em.mantissa 2).symm
    rw [halves, ExtendedMantissa.shiftRightOne]
    obtain heven | hodd := Nat.mod_two_eq_zero_or_one em.mantissa
    · have hbit : (em.mantissa % 2 != 0) = false := by rw [heven]; rfl
      rw [heven, Nat.cast_zero] at hparts
      rw [hbit, if_neg Bool.false_ne_true]
      linarith
    · have hbit : (em.mantissa % 2 != 0) = true := by rw [hodd]; rfl
      rw [hodd, Nat.cast_one] at hparts
      rw [hbit, if_pos rfl]
      linarith
  constructor
  · rw [hhalves]
    linarith
  · rw [hhalves]
    linarith
  · rw [hhalves, div_left_inj' two_ne_zero]
    show (em.roundBit || em.stickyBit) = false ↔ _
    have hexact := h.exact
    have hlow := h.low
    rw [halves] at hexact hlow
    cases hround : em.roundBit
    · simpa [hround] using hexact
    · rw [hround, if_pos rfl] at hlow
      exact iff_of_false (by simp) (by linarith)

theorem shiftRight (h : Represents em q) (n : Nat) : Represents (em >>> n) (q / 2 ^ n) := by
  induction n with
  | zero =>
    rw [pow_zero, div_one]
    exact h
  | succ n ih =>
    rw [pow_succ, ← div_div]
    exact ih.shiftRightOne

/-- Rounding takes the nearest mantissa. -/
theorem nearest (h : Represents em q) : Nearest q em.roundedMantissa := by
  obtain ⟨hlow, hhigh, hexact⟩ := h
  obtain ⟨m, round, sticky⟩ := em
  rw [halves] at hlow hhigh hexact
  have hnext : ((m + 1 : Nat) : ℚ) = m + 1 := Nat.cast_succ m
  cases round <;> cases sticky <;>
    simp only [if_true, if_false, Bool.false_eq_true, add_zero, reduceCtorEq, true_iff,
      false_iff] at hlow hhigh hexact
  · show Nearest q m
    exact ⟨by linarith, by linarith, fun _ => ⟨by linarith, by linarith⟩⟩
  · show Nearest q m
    exact ⟨by linarith, by linarith, fun _ => ⟨by linarith, by linarith⟩⟩
  · -- in the middle the even one of the two mantissas is taken
    show Nearest q (m + m % 2)
    obtain heven | hodd := Nat.mod_two_eq_zero_or_one m
    · rw [heven, Nat.add_zero]
      exact ⟨by linarith, by linarith, fun hodd => absurd hodd (by omega)⟩
    · rw [hodd]
      exact ⟨by linarith, by linarith, fun hodd => absurd hodd (by omega)⟩
  · show Nearest q (m + 1)
    have : m + 1 / 2 < q := lt_of_le_of_ne hlow (Ne.symm hexact)
    exact ⟨by linarith, by linarith, fun _ => ⟨by linarith, by linarith⟩⟩

end Represents

theorem represents_exact (m : Nat) : Represents (.ofMantissaAndAccuracy m .exact) m := by
  have hhalves : halves (.ofMantissaAndAccuracy m .exact) = m := add_zero _
  constructor
  · exact hhalves.le
  · rw [hhalves]
    linarith
  · exact iff_of_true rfl hhalves.symm

/-- The rest of a division tells the residual bits. -/
theorem represents_div (num : Nat) {den : Nat} (hden : 0 < den) :
    Represents (.ofMantissaAndAccuracy (num / den) (accuracyOfFraction (num % den) den)) (num / den) := by
  obtain ⟨fraction, hparts, hnonneg, hlt, hzero, hless, hmore⟩ := quotient_parts num hden
  rw [hparts, accuracyOfFraction]
  generalize num / den = whole
  split
  · next h =>
    rw [hzero.mp h, add_zero]
    exact represents_exact whole
  · next h =>
    have hpos : 0 < fraction := lt_of_le_of_ne hnonneg (Ne.symm (mt hzero.mpr h))
    cases hside : compare (2 * (num % den)) den with
    | lt =>
      have hbelow := hless.mp (compare_lt_iff_lt.mp hside)
      have hhalves : halves (.ofMantissaAndAccuracy whole (.inexact .lt)) = whole := add_zero _
      constructor
      · linarith
      · linarith
      · exact iff_of_false Bool.false_ne_true.symm (by linarith)
    | eq =>
      have hmiddle := compare_eq_iff_eq.mp hside
      have hhalves : halves (.ofMantissaAndAccuracy whole (.inexact .eq)) = whole + 1 / 2 := rfl
      have hfraction : fraction = 1 / 2 := le_antisymm
        (not_lt.mp (mt hmore.mpr hmiddle.not_gt)) (not_lt.mp (mt hless.mpr hmiddle.not_lt))
      constructor
      · linarith
      · linarith
      · exact iff_of_true rfl (by linarith)
    | gt =>
      have habove := hmore.mp (compare_gt_iff_gt.mp hside)
      have hhalves : halves (.ofMantissaAndAccuracy whole (.inexact .gt)) = whole + 1 / 2 := rfl
      constructor
      · linarith
      · linarith
      · exact iff_of_false Bool.false_ne_true.symm (by linarith)

/-! ## Rounding -/

variable {em : ExtendedMantissa} {q : ℚ} {e : Int}

theorem targetExponent64 (t : Int) : Format.binary64.targetExponent t = max (t - 53) (-1074) := rfl

theorem lastBitOf64 (r : ℚ) : binary64.lastBitOf r = max (Int.log 2 r - 52) (-1074) := rfl

/-- What a mantissa stands for has its leading bit. -/
theorem log_eq_of_represents (h : Represents em q) (hm : 0 < em.mantissa) (e : Int) :
    Int.log 2 (q * 2 ^ e) = em.mantissa.log2 + e := by
  obtain ⟨hlow, hhigh⟩ := h.bounds
  have hq : 0 < q := lt_of_lt_of_le (by exact_mod_cast hm) hlow
  have hlog (k : ℤ) : (2 : ℚ) ^ k ≤ q ↔ e + k ≤ Int.log 2 (q * 2 ^ e) := by
    rw [← BinaryFormat.zpow_le_div_iff (mul_pos hq (two_zpow_pos e)),
      mul_div_cancel_right₀ q (two_zpow_pos e).ne']
  have hreached : (2 : ℚ) ^ (em.mantissa.log2 : ℤ) ≤ q := by
    rw [zpow_natCast]
    exact le_trans (by exact_mod_cast Nat.log2_self_le (Nat.ne_of_gt hm)) hlow
  have hnext : ¬ (2 : ℚ) ^ (em.mantissa.log2 + 1 : ℤ) ≤ q := by
    rw [not_le, ← Nat.cast_succ, zpow_natCast]
    refine hhigh.trans_le ?_
    exact_mod_cast Nat.lt_log2_self (n := em.mantissa)
  rw [hlog] at hreached hnext
  omega

/-- The exponent that a mantissa is given is that of the last bit that is kept of what it stands for. -/
theorem targetExponent_eq_lastBitOf (h : Represents em q) (hq : 0 < q)
    (he : e ≤ binary64.lastBitOf (q * 2 ^ e)) :
    Format.binary64.targetExponent (totalExponent em.mantissa e) = binary64.lastBitOf (q * 2 ^ e) := by
  obtain ⟨hlow, hhigh⟩ := h.bounds
  have hr : 0 < q * 2 ^ e := mul_pos hq (two_zpow_pos e)
  rw [lastBitOf64] at *
  rw [targetExponent64, totalExponent]
  obtain hzero | hm := Nat.eq_zero_or_pos em.mantissa
  · -- nothing is left of a mantissa below the least number
    have hlog : Int.log 2 (q * 2 ^ e) < e := by
      rw [← Int.lt_zpow_iff_log_lt (by decide) hr]
      rw [hzero, Nat.cast_zero, zero_add] at hhigh
      exact mul_lt_of_lt_one_left (two_zpow_pos e) hhigh
    rw [hzero]
    change max ((0 : Int) + 1 + e - 53) (-1074) = _
    omega
  · rw [log_eq_of_represents h hm]
    congr 1
    omega

theorem mantissa_ofMantissaAndAccuracy (m : Nat) (accuracy : Accuracy) :
    (ExtendedMantissa.ofMantissaAndAccuracy m accuracy).mantissa = m := by
  rcases accuracy with _ | (_ | _ | _) <;> rfl

/-- A rounded mantissa is too long by one digit at most. -/
theorem shift_eq_carry {whole : Nat} {last : Int} (hhigh : whole ≤ 2 ^ 53) (hleast : -1074 ≤ last)
    (hleading : 2 ^ 52 ≤ whole ∨ last = -1074) :
    ((shiftToTargetExponent Format.binary64 whole last .exact).1.mantissa,
      (shiftToTargetExponent Format.binary64 whole last .exact).2) = binary64.carry whole last := by
  show _ = if whole = 2 ^ 53 then (2 ^ 52, last + 1) else (whole, last)
  rw [shiftToTargetExponent, targetExponent64, totalExponent, shiftToExponent]
  dsimp only
  obtain hlt | rfl := Nat.lt_or_eq_of_le hhigh
  · have hlog : whole.log2 ≤ 52 := by
      obtain rfl | hpos := Nat.eq_zero_or_pos whole
      · decide
      · exact Nat.lt_succ_iff.mp ((Nat.log2_lt (Nat.ne_of_gt hpos)).mpr hlt)
    have hshift : (max ((whole.log2 : Int) + 1 + last - 53) (-1074) - last).toNat = 0 := by omega
    rw [hshift, if_neg (Nat.ne_of_lt hlt)]
    exact Prod.ext rfl (Int.add_zero last)
  · have hshift : (max (((2 ^ 53).log2 : Int) + 1 + last - 53) (-1074) - last).toNat = 1 := by
      rw [Nat.log2_two_pow]
      omega
    rw [hshift, if_pos rfl]
    rfl

/-- Rounding a mantissa rounds what it stands for. -/
theorem roundWithAccuracy_eq (s : Sign) {m : Nat} {accuracy : Accuracy}
    (h : Represents (.ofMantissaAndAccuracy m accuracy) q) (hq : 0 < q)
    (he : e ≤ binary64.lastBitOf (q * 2 ^ e)) :
    ∃ k f, binary64.Rounded (q * 2 ^ e) k f ∧ roundWithAccuracy Format.binary64 s m e accuracy =
      if hk : 0 < k then .finite s k f hk else .zero s := by
  have hr : 0 < q * 2 ^ e := mul_pos hq (two_zpow_pos e)
  have htarget := targetExponent_eq_lastBitOf h hq he
  have hleast : -1074 ≤ binary64.lastBitOf (q * 2 ^ e) := binary64.depth_le_lastBitOf _
  rw [mantissa_ofMantissaAndAccuracy] at htarget
  obtain ⟨shift, hshift⟩ := Int.le.dest he
  have hscaled : q / 2 ^ shift = q * 2 ^ e / 2 ^ binary64.lastBitOf (q * 2 ^ e) := by
    rw [← hshift, zpow_add₀ two_ne_zero, zpow_natCast, mul_comm, mul_div_mul_left _ _ (two_zpow_pos e).ne']
  have hnearest := (h.shiftRight shift).nearest
  rw [hscaled] at hnearest
  obtain ⟨hhigh, hleading⟩ := BinaryFormat.whole_bounds (by decide) hr hnearest
  refine ⟨_, _, ⟨_, hnearest, (shift_eq_carry hhigh hleast hleading).symm⟩, ?_⟩
  have hfirst : shiftToTargetExponent Format.binary64 m e accuracy =
      (ExtendedMantissa.ofMantissaAndAccuracy m accuracy >>> shift, binary64.lastBitOf (q * 2 ^ e)) := by
    rw [shiftToTargetExponent, htarget, shiftToExponent, ← hshift, add_sub_cancel_left,
      Int.toNat_natCast]
  rw [roundWithAccuracy, hfirst]
  dsimp only
  split
  · next hzero => rw [dif_neg (by omega)]
  · next hne => rw [dif_pos (Nat.pos_of_ne_zero hne)]

/-! ## Products and quotients -/

/-- What an exact result that is not negative is rounded to. -/
def Rounds (r c : ℚ) : Prop :=
  r = 0 ∧ c = 0 ∨ 0 < r ∧ ∃ k f, binary64.Rounded r k f ∧ c = k * 2 ^ f

variable {r r' c c' a b : ℚ} {u v : UnpackedFloat} {x y : Float}

theorem exists_rounds (hr : 0 ≤ r) : ∃ c, Rounds r c := by
  obtain rfl | hr := hr.eq_or_lt
  · exact ⟨0, .inl ⟨rfl, rfl⟩⟩
  · obtain ⟨k, f, h⟩ := binary64.exists_rounded hr
    exact ⟨_, .inr ⟨hr, k, f, h, rfl⟩⟩

namespace Rounds

theorem nonneg (h : Rounds r c) : 0 ≤ c := by
  obtain ⟨-, rfl⟩ | ⟨-, k, f, -, rfl⟩ := h
  · exact le_rfl
  · exact mul_nonneg (Nat.cast_nonneg k) (two_zpow_pos f).le

theorem eq_zero (h : Rounds 0 c) : c = 0 := by
  obtain ⟨-, rfl⟩ | ⟨hr, -⟩ := h
  · rfl
  · exact (lt_irrefl _ hr).elim

/-- Rounding keeps the order. -/
theorem mono (h : Rounds r c) (h' : Rounds r' c') (hle : r ≤ r') : c ≤ c' := by
  obtain ⟨-, rfl⟩ | ⟨hr, k, f, hround, rfl⟩ := h
  · exact h'.nonneg
  · obtain ⟨rfl, -⟩ | ⟨-, k', f', hround', rfl⟩ := h'
    · exact (hr.not_ge hle).elim
    · exact hround.mono (by decide) hr hle hround'

end Rounds

/-- What is a number already stays as it is. -/
theorem rounds_self (h : HasValue u a) (ha : 0 ≤ a) : Rounds a a := by
  obtain ⟨rfl, -⟩ | ⟨m, e, hm, hcanonical, rfl, -⟩ := h.cases_of_nonneg ha
  · exact .inl ⟨rfl, rfl⟩
  · have hr : (0 : ℚ) < m * 2 ^ e := mul_pos (by exact_mod_cast hm) (two_zpow_pos e)
    obtain ⟨k, f, hround⟩ := binary64.exists_rounded hr
    exact .inr ⟨hr, k, f, hround, ((hround.isNearest (by decide) hr).eq_self hcanonical rfl).symm⟩

/-- A rounded mantissa has the value that its exact value is rounded to. -/
theorem hasValue_roundWithAccuracy {m : Nat} {accuracy : Accuracy}
    (h : Represents (.ofMantissaAndAccuracy m accuracy) q) (hq : 0 < q)
    (he : e ≤ binary64.lastBitOf (q * 2 ^ e)) (hrounds : Rounds (q * 2 ^ e) c) :
    HasValue (roundWithAccuracy Format.binary64 .positive m e accuracy) c := by
  have hr : 0 < q * 2 ^ e := mul_pos hq (two_zpow_pos e)
  obtain ⟨k, f, hround, hresult⟩ := roundWithAccuracy_eq .positive h hq he
  obtain ⟨hzero, -⟩ | ⟨-, k', f', hround', rfl⟩ := hrounds
  · exact (hr.ne' hzero).elim
  obtain ⟨rfl, rfl⟩ := hround.unique hround'
  rw [hresult]
  split
  · next hk => exact .positive (hround.isNearest (by decide) hr).canonical hk
  · next hk =>
    rw [Nat.eq_zero_of_not_pos hk, Nat.cast_zero, zero_mul]
    exact .zero _

namespace HasValue

/-- The product of two numbers. -/
theorem mul (hu : HasValue u a) (hv : HasValue v b) (ha : 0 ≤ a) (hb : 0 ≤ b)
    (hrounds : Rounds (a * b) c) : HasValue (UnpackedFloat.mul Format.binary64 u v) c := by
  obtain ⟨rfl, s, rfl⟩ | ⟨m, e, hm, hcanonical, rfl, rfl⟩ := hu.cases_of_nonneg ha
  · rw [zero_mul] at hrounds
    rw [hrounds.eq_zero]
    obtain ⟨-, s', rfl⟩ | ⟨m', e', hm', -, -, rfl⟩ := hv.cases_of_nonneg hb <;> exact .zero _
  obtain ⟨rfl, s', rfl⟩ | ⟨m', e', hm', hcanonical', rfl, rfl⟩ := hv.cases_of_nonneg hb
  · rw [mul_zero] at hrounds
    rw [hrounds.eq_zero]
    exact .zero _
  have hproduct : (m * 2 ^ e * (m' * 2 ^ e') : ℚ) = (m * m' : Nat) * 2 ^ (e + e') := by
    rw [zpow_add₀ two_ne_zero, Nat.cast_mul]
    ring
  have hpos : 0 < m * m' := Nat.mul_pos hm hm'
  rw [hproduct] at hrounds
  refine hasValue_roundWithAccuracy (represents_exact _) (by exact_mod_cast hpos) ?_ hrounds
  rw [lastBitOf64, log_eq_of_represents (represents_exact _) hpos]
  -- a mantissa of full length keeps its last bit above that of the product; two short ones are least
  have hleast : -1074 ≤ e := hcanonical.least
  have hleast' : -1074 ≤ e' := hcanonical'.least
  by_cases hlong : 2 ^ 52 ≤ m * m'
  · have : 52 ≤ (m * m').log2 := (Nat.le_log2 hpos.ne').mpr hlong
    change e + e' ≤ max (((m * m').log2 : Int) + (e + e') - 52) _
    omega
  · have hshort : ¬ 2 ^ 52 ≤ m := fun h => hlong (h.trans (Nat.le_mul_of_pos_right m hm'))
    have : e = -1074 := hcanonical.leading.resolve_left hshort
    have hshort' : ¬ 2 ^ 52 ≤ m' := fun h => hlong (h.trans (Nat.le_mul_of_pos_left m' hm))
    have : e' = -1074 := hcanonical'.leading.resolve_left hshort'
    omega

/-- The quotient of two numbers. -/
theorem div (hu : HasValue u a) (hv : HasValue v b) (ha : 0 ≤ a) (hb : 0 < b)
    (hrounds : Rounds (a / b) c) : HasValue (UnpackedFloat.div Format.binary64 u v) c := by
  obtain ⟨rfl, -⟩ | ⟨m', e', hm', hcanonical', rfl, rfl⟩ := hv.cases_of_nonneg hb.le
  · exact (lt_irrefl _ hb).elim
  obtain ⟨rfl, s, rfl⟩ | ⟨m, e, hm, hcanonical, rfl, rfl⟩ := hu.cases_of_nonneg ha
  · rw [zero_div] at hrounds
    rw [hrounds.eq_zero]
    exact .zero _
  have hm'' : (0 : ℚ) < m' := by exact_mod_cast hm'
  have hquotient : (m * 2 ^ e / (m' * 2 ^ e') : ℚ) = m / m' * 2 ^ (e - e') := by
    rw [zpow_sub₀ two_ne_zero, div_mul_div_comm]
  have hlog : (m.log2 : ℤ) - m'.log2 - 1 + (e - e') ≤ Int.log 2 (m / m' * 2 ^ (e - e') : ℚ) := by
    have hpos : (0 : ℚ) < m / m' := div_pos (by exact_mod_cast hm) hm''
    rw [add_comm, ← BinaryFormat.zpow_le_div_iff (mul_pos hpos (two_zpow_pos _)),
      mul_div_cancel_right₀ _ (two_zpow_pos _).ne']
    exact (Int.zpow_le_iff_le_log (by decide) hpos).mpr (log_div_bounds hm hm').1
  rw [hquotient] at hrounds
  rw [UnpackedFloat.div, divCore]
  dsimp only
  generalize htarget : min (e - e') (Format.binary64.targetExponent
    (totalExponent m e - totalExponent m' e')) = target
  -- the quotient is taken with as many digits as a mantissa needs, or more
  have hdigits : target ≤ binary64.lastBitOf (m / m' * 2 ^ (e - e')) := by
    rw [lastBitOf64]
    rw [targetExponent64, totalExponent, totalExponent] at htarget
    omega
  obtain ⟨shift, hshift⟩ := Int.le.dest (htarget ▸ min_le_left _ _ : target ≤ e - e')
  have hscaled : (m / m' * 2 ^ (e - e') : ℚ) = (m * 2 ^ shift : Nat) / m' * 2 ^ target := by
    rw [← hshift, zpow_add₀ two_ne_zero, zpow_natCast]
    push_cast
    ring
  rw [hscaled] at hrounds hdigits
  rw [← hshift, add_sub_cancel_left, Int.toNat_natCast, Nat.shiftLeft_eq]
  refine hasValue_roundWithAccuracy (represents_div _ hm') (div_pos ?_ hm'') hdigits hrounds
  exact_mod_cast Nat.mul_pos hm (Nat.two_pow_pos shift)

end HasValue

/-! ## 64-bit numbers -/

/-- A value below the range's end is packed without loss. -/
theorem exists_unpack (h : HasValue u a) (ha : 0 ≤ a) (hfinite : a < 2 ^ (1024 : ℤ)) :
    ∃ x : Float, value? x = some a ∧ x.toModel.unpack = u := by
  obtain ⟨rfl, s, rfl⟩ | ⟨m, e, hm, hcanonical, rfl, rfl⟩ := h.cases_of_nonneg ha
  · have hleast : binary64.Canonical 0 (-1074) := ⟨by decide, by decide, .inr rfl⟩
    obtain ⟨negative, rfl⟩ : ∃ negative, signOf negative = s := by
      cases s
      · exact ⟨true, rfl⟩
      · exact ⟨false, rfl⟩
    refine ⟨ofMagnitude64 negative (binary64.pattern 0 (-1074)), ?_,
      unpack_of_finite (decode64_of_canonical hleast (by decide) negative)⟩
    rw [value?_of_canonical hleast (by decide)]
    cases negative <;> simp [withSign]
  · have hpattern := (finite64_iff hcanonical).mpr hfinite
    refine ⟨_, value?_of_canonical hcanonical hpattern false, ?_⟩
    rw [unpack_of_finite (decode64_of_canonical hcanonical hpattern false), dif_pos hm]
    rfl

/-- A number that is the packed form of a value has this value. -/
theorem value?_of_pack {z : Float} (hz : z.toModel.unpack = unpack Format.binary64 (pack Format.binary64 u))
    (h : HasValue u a) (ha : 0 ≤ a) (hfinite : a < 2 ^ (1024 : ℤ)) : value? z = some a := by
  obtain ⟨x, hx, rfl⟩ := exists_unpack h ha hfinite
  have hpacked : pack Format.binary64 x.toModel.unpack = x.toBits.toBitVec :=
    pack_unpack (by decide) x.toModel.valid
  rw [hpacked] at hz
  rw [eq_of_unpack (hz : z.toModel.unpack = x.toModel.unpack), hx]

/-- The product of two numbers is the number nearest to the exact product. -/
theorem value?_mul (hx : value? x = some a) (hy : value? y = some b) (ha : 0 ≤ a) (hb : 0 ≤ b)
    (hrounds : Rounds (a * b) c) (hfinite : c < 2 ^ (1024 : ℤ)) : value? (x * y) = some c :=
  value?_of_pack rfl ((hasValue_unpack hx).mul (hasValue_unpack hy) ha hb hrounds) hrounds.nonneg hfinite

/-- The quotient of two numbers is the number nearest to the exact quotient. -/
theorem value?_div (hx : value? x = some a) (hy : value? y = some b) (ha : 0 ≤ a) (hb : 0 < b)
    (hrounds : Rounds (a / b) c) (hfinite : c < 2 ^ (1024 : ℤ)) : value? (x / y) = some c :=
  value?_of_pack rfl ((hasValue_unpack hx).div (hasValue_unpack hy) ha hb hrounds) hrounds.nonneg hfinite

end AdaptiveConsensus.Decimal
