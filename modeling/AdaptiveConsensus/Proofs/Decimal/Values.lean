import AdaptiveConsensus.Proofs.Decimal.Nearest
import AdaptiveConsensus.Proofs.Decimal.Order

/-!
# The values of numbers

A 64-bit number that is finite has an exact value, and each value that a number has is had with the other
sign, too. Numbers are compared as their values are.

- `value?`: the exact value of a number.
- `hasValue_unpack`: what a number with a value unpacks to.
- `lt_iff_value`, `le_iff_value`: comparison is comparison of values.
-/

namespace AdaptiveConsensus.Decimal

open Float.Model (UnpackedFloat Format)
open Float.Model.UnpackedFloat (Sign unpack pack unpackSign unpackExponent unpackMantissa)

/-! ## Values -/

/-- A magnitude with a sign. -/
def withSign (negative : Bool) (r : ℚ) : ℚ := if negative then -r else r

theorem withSign_not (negative : Bool) (r : ℚ) : withSign (!negative) r = -withSign negative r := by
  cases negative
  · rfl
  · exact (neg_neg r).symm

/-- The exact value of a number; infinities and what is not a number have none. -/
def value? (x : Float) : Option ℚ :=
  match decode64 x with
  | .finite negative mantissa exponent => some (withSign negative (mantissa * 2 ^ exponent))
  | _ => none

variable {x y : Float} {a b : ℚ} {m : Nat} {e : Int}

theorem value?_of_canonical (h : binary64.Canonical m e)
    (hfinite : binary64.pattern m e < binary64.infinityBits) (negative : Bool) :
    value? (ofMagnitude64 negative (binary64.pattern m e)) = some (withSign negative (m * 2 ^ e)) := by
  rw [value?, decode64_of_canonical h hfinite negative]

theorem value?_eq_some_iff : value? x = some a ↔
    ∃ negative m e, decode64 x = .finite negative m e ∧ withSign negative (m * 2 ^ e) = a := by
  rw [value?]
  cases decode64 x <;> simp

/-- The value with the other sign is the value of a number. -/
theorem exists_value_neg (h : value? x = some a) : ∃ y, value? y = some (-a) := by
  obtain ⟨negative, m, e, hdecode, rfl⟩ := value?_eq_some_iff.mp h
  obtain ⟨hcanonical, hfinite, -⟩ := eq_ofMagnitude64_of_finite hdecode
  refine ⟨_, (value?_of_canonical hcanonical hfinite !negative).trans (congrArg some ?_)⟩
  exact withSign_not negative _

/-! ## Numbers in parts -/

/-- The sign of a number. -/
def signOf (negative : Bool) : Sign := if negative then .negative else .positive

section Unpacking

variable {b : BitVec Format.binary64.numBits} {negative : Bool}

theorem ofBitVec_unpackSign (b : BitVec Format.binary64.numBits) :
    Sign.ofBitVec (unpackSign b) = signOf (decide (2 ^ 63 ≤ b.toNat)) := by
  have hbit : (unpackSign b).toNat = b.toNat / 2 ^ 63 := by
    rw [unpackSign, BitVec.toNat_cast, BitVec.extractLsb_toNat, Nat.shiftRight_eq_div_pow]
    have : b.toNat < 2 ^ 64 := b.isLt
    show b.toNat / 2 ^ 63 % 2 ^ 1 = _
    omega
  rw [Sign.ofBitVec, signOf]
  by_cases h : 2 ^ 63 ≤ b.toNat
  · rw [if_neg, if_pos (decide_eq_true h)]
    intro hzero
    rw [hzero] at hbit
    change 0 = _ at hbit
    omega
  · rw [if_pos, if_neg (by rwa [decide_eq_true_iff])]
    apply BitVec.eq_of_toNat_eq
    rw [hbit]
    show _ = 0
    omega

/-- The two fields of a pattern that is finite: those of a subnormal number, or those of a normal one. -/
theorem fields_of_canonical (h : binary64.Canonical m e)
    (hpattern : binary64.pattern m e = b.toNat % 2 ^ 63)
    (hfinite : b.toNat % 2 ^ 63 < binary64.infinityBits) :
    m < 2 ^ 52 ∧ e = -1074 ∧ (unpackExponent b).toNat = 0 ∧ (unpackMantissa b).toNat = m ∨
      2 ^ 52 ≤ m ∧ (unpackExponent b).toNat = e + 1075 ∧ (unpackExponent b).toNat < 2047 ∧
        (unpackMantissa b).toNat + 2 ^ 52 = m := by
  have hm : m < 2 ^ 53 := h.mantissa_lt
  have hleast : -1074 ≤ e := h.least
  have hleading : 2 ^ 52 ≤ m ∨ e = -1074 := h.leading
  change _ < 2047 * 2 ^ 52 at hfinite
  change (e + 1074).toNat * 2 ^ 52 + m = _ at hpattern
  have hexponent : (unpackExponent b).toNat = b.toNat / 2 ^ 52 % 2 ^ 11 := toNat_unpackExponent b
  have hmantissa : (unpackMantissa b).toNat = b.toNat % 2 ^ 52 := toNat_unpackMantissa b
  rw [hexponent, hmantissa]
  omega

/-- A pattern that stands for a number unpacks to its sign, its mantissa and its exponent. -/
theorem unpack_of_decode (h : binary64.decode b.toNat = .finite negative m e) :
    unpack Format.binary64 b =
      if hm : 0 < m then .finite (signOf negative) m e hm else .zero (signOf negative) := by
  obtain ⟨hnegative, hcanonical, hpattern, hfinite⟩ := BinaryFormat.decode_eq_finite (by decide) h
  have hsign : Sign.ofBitVec (unpackSign b) = signOf negative := by
    rw [ofBitVec_unpackSign, hnegative]
    rfl
  have hbias : (Format.binary64.exponentBias + Format.binary64.mantissaBitsWithoutImplicit : Int) =
      1075 := rfl
  rw [unpack, hsign, hbias]
  dsimp only
  obtain ⟨-, rfl, hexponent, hmantissa⟩ | ⟨hleading, hexponent, hlt, hmantissa⟩ :=
    fields_of_canonical hcanonical hpattern hfinite
  · have hzero : unpackExponent b = 0#_ := BitVec.eq_of_toNat_eq hexponent
    rw [hzero, if_neg (by decide), if_pos rfl]
    by_cases hm : 0 < m
    · rw [dif_pos hm, dif_neg]
      · congr 1
      · rintro hnone
        rw [hnone] at hmantissa
        exact hm.ne hmantissa
    · rw [dif_neg hm, dif_pos]
      exact BitVec.eq_of_toNat_eq (hmantissa.trans (Nat.eq_zero_of_not_pos hm))
  · have hones : unpackExponent b ≠ -1#_ := fun heq => by
      rw [heq] at hlt
      exact absurd hlt (by decide)
    have hnormal : unpackExponent b ≠ 0#_ := fun heq => by
      rw [heq] at hexponent
      change (0 : Int) = _ at hexponent
      have : -1074 ≤ e := hcanonical.least
      omega
    have hm : (1#1 ++ unpackMantissa b).toNat = m := by
      rw [toNat_one_append, Nat.add_comm]
      exact hmantissa
    rw [if_neg hones, if_neg hnormal, dif_pos (by omega)]
    congr 1
    omega

end Unpacking

theorem unpack_of_finite {negative : Bool} (h : decode64 x = .finite negative m e) :
    x.toModel.unpack =
      if hm : 0 < m then .finite (signOf negative) m e hm else .zero (signOf negative) :=
  unpack_of_decode h

/-- An unpacked number in canonical form and its value. -/
inductive HasValue : UnpackedFloat → ℚ → Prop
  | zero (s : Sign) : HasValue (.zero s) 0
  | positive {m : Nat} {e : Int} (h : binary64.Canonical m e) (hm : 0 < m) :
    HasValue (.finite .positive m e hm) (m * 2 ^ e)
  | negative {m : Nat} {e : Int} (h : binary64.Canonical m e) (hm : 0 < m) :
    HasValue (.finite .negative m e hm) (-(m * 2 ^ e))

/-- A number unpacks to its value. -/
theorem hasValue_unpack (h : value? x = some a) : HasValue x.toModel.unpack a := by
  obtain ⟨negative, m, e, hdecode, rfl⟩ := value?_eq_some_iff.mp h
  rw [unpack_of_finite hdecode]
  obtain rfl | hm := Nat.eq_zero_or_pos m
  · have hzero : withSign negative ((0 : Nat) * 2 ^ e) = 0 := by cases negative <;> simp [withSign]
    rw [hzero]
    exact .zero _
  · rw [dif_pos hm]
    have hcanonical := (eq_ofMagnitude64_of_finite hdecode).1
    cases negative
    · exact .positive hcanonical hm
    · exact .negative hcanonical hm

/-! ## The order of numbers -/

variable {u v : UnpackedFloat}

namespace HasValue

theorem not_nan (h : HasValue u a) : u.isNaN = false := by
  cases h <;> rfl

/-- A number whose value is not negative is a zero or has the sign plus. -/
theorem cases_of_nonneg (h : HasValue u a) (ha : 0 ≤ a) : (a = 0 ∧ ∃ s, u = .zero s) ∨
    ∃ m e hm, binary64.Canonical m e ∧ a = m * 2 ^ e ∧ u = .finite .positive m e hm := by
  cases h with
  | zero s => exact .inl ⟨rfl, s, rfl⟩
  | @positive m e h hm => exact .inr ⟨m, e, hm, h, rfl, rfl⟩
  | @negative m e h hm =>
    have : (0 : ℚ) < m * 2 ^ e := mul_pos (by exact_mod_cast hm) (two_zpow_pos e)
    linarith

/-- Numbers have their places in the order of their values. -/
theorem place_lt_iff (hu : HasValue u a) (hv : HasValue v b) : place u < place v ↔ a < b := by
  have hpos {m : Nat} (e : Int) (hm : 0 < m) : (0 : ℚ) < m * 2 ^ e :=
    mul_pos (by exact_mod_cast hm) (two_zpow_pos e)
  cases hu with
  | zero s =>
    cases hv with
    | zero s' => exact iff_of_false (lt_irrefl _) (lt_irrefl _)
    | @positive m' e' h' hm' => exact iff_of_true (by simp [place, Prod.Lex.lt_iff]) (hpos e' hm')
    | @negative m' e' h' hm' =>
      refine iff_of_false (by simp [place, Prod.Lex.lt_iff]) ?_
      linarith [hpos e' hm']
  | @positive m e h hm =>
    cases hv with
    | zero s' => exact iff_of_false (by simp [place, Prod.Lex.lt_iff]) (hpos e hm).le.not_gt
    | @positive m' e' h' hm' =>
      rw [h.lt_iff (by decide) h']
      simp [place, Prod.Lex.lt_iff]
    | @negative m' e' h' hm' =>
      refine iff_of_false (by simp [place, Prod.Lex.lt_iff]) ?_
      linarith [hpos e hm, hpos e' hm']
  | @negative m e h hm =>
    cases hv with
    | zero s' =>
      refine iff_of_true (by simp [place, Prod.Lex.lt_iff]) ?_
      linarith [hpos e hm]
    | @positive m' e' h' hm' =>
      refine iff_of_true (by simp [place, Prod.Lex.lt_iff]) ?_
      linarith [hpos e hm, hpos e' hm']
    | @negative m' e' h' hm' =>
      rw [neg_lt_neg_iff, h'.lt_iff (by decide) h]
      simp [place, Prod.Lex.lt_iff, eq_comm]

end HasValue

theorem lt_iff_value (hx : value? x = some a) (hy : value? y = some b) : x < y ↔ a < b := by
  have hx := hasValue_unpack hx
  have hy := hasValue_unpack hy
  rw [lt_iff_place, hx.place_lt_iff hy]
  exact ⟨fun h => h.2.2, fun h => ⟨hx.not_nan, hy.not_nan, h⟩⟩

theorem le_iff_value (hx : value? x = some a) (hy : value? y = some b) : x ≤ y ↔ a ≤ b := by
  have hx := hasValue_unpack hx
  have hy := hasValue_unpack hy
  have hle : x ≤ y ↔ place x.toModel.unpack < place y.toModel.unpack ∨
      place x.toModel.unpack = place y.toModel.unpack := by
    show decide ((UnpackedFloat.compare _ _).any (·.isLE) = true) = true ↔ _
    rw [decide_eq_true_iff]
    have hlt := compare_eq_lt (a := x.toModel.unpack) (b := y.toModel.unpack)
    have heq := compare_eq_eq (a := x.toModel.unpack) (b := y.toModel.unpack)
    simp only [hx.not_nan, hy.not_nan, true_and] at hlt heq
    rw [← hlt, ← heq]
    rcases UnpackedFloat.compare x.toModel.unpack y.toModel.unpack with _ | (_ | _ | _) <;> decide
  rw [hle, ← le_iff_lt_or_eq, ← not_lt, hy.place_lt_iff hx, not_lt]

end AdaptiveConsensus.Decimal
