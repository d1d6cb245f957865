import AdaptiveConsensus.Decimal.Width
import AdaptiveConsensus.Proofs.Decimal.Nearest

/-!
# Wider and narrower numbers

The numbers of the 32-bit format are among those of the 64-bit format. Widening a number therefore keeps
what it stands for, and narrowing finds it again.

- `BinaryFormat.magnitude_of_value`: a number of a format is its own nearest number.
- `decode64_widen`: a widened number stands for the same number.
- `narrow_widen`: narrowing undoes widening, for infinities and for what is not a number, too.
-/

namespace AdaptiveConsensus.Decimal

open Float.Model (Format)

/-! ## 32-bit numbers -/

theorem ofBits32_toBits (x : Float32) : Float32.ofBits x.toBits = x := by
  obtain ⟨bits, hvalid⟩ := x
  show Float32.ofModel (Float32.Model.ofBits bits) = Float32.ofModel ⟨bits, hvalid⟩
  rw [Float32.Model.ofBits, Float32.Model.pack]
  congr 2
  exact congrArg UInt32.ofBitVec (pack_unpack (by decide) hvalid)

theorem eq_ofMagnitude32 (x : Float32) :
    x = ofMagnitude32 (decide (binary32.signBit ≤ x.toBits.toNat))
      (x.toBits.toNat % binary32.signBit) := by
  rw [ofMagnitude32, BinaryFormat.signed_parts (show _ < 2 * 2 ^ 31 from x.toBits.toNat_lt),
    UInt32.ofNat_toNat, ofBits32_toBits]

theorem eq_ofMagnitude32_of_finite {x : Float32} {negative : Bool} {mantissa : Nat} {exponent : Int}
    (h : decode32 x = .finite negative mantissa exponent) :
    binary32.Canonical mantissa exponent ∧
      binary32.pattern mantissa exponent < binary32.infinityBits ∧
      x = ofMagnitude32 negative (binary32.pattern mantissa exponent) := by
  obtain ⟨hnegative, hcanonical, hpattern, hfinite⟩ :=
    BinaryFormat.decode_eq_finite (by decide) h
  refine ⟨hcanonical, hpattern ▸ hfinite, ?_⟩
  rw [hpattern, hnegative]
  exact eq_ofMagnitude32 x

theorem eq_ofMagnitude32_of_infinite {x : Float32} {negative : Bool}
    (h : decode32 x = .infinite negative) : x = ofMagnitude32 negative binary32.infinityBits := by
  obtain ⟨hnegative, hmagnitude⟩ := BinaryFormat.decode_eq_infinite h
  rw [hnegative, ← hmagnitude]
  exact eq_ofMagnitude32 x

theorem eq_ofMagnitude32_of_nan {x : Float32} (h : decode32 x = .nan) :
    x = ofMagnitude32 false binary32.nanBits := by
  have hbits : x.toBits.toNat = binary32.nanBits :=
    congrArg BitVec.toNat (eq_packedNaN x.toModel.valid (BinaryFormat.decode_eq_nan h))
  rw [ofMagnitude32, if_neg Bool.false_ne_true, ← hbits, UInt32.ofNat_toNat, ofBits32_toBits]

/-! ## Numbers of two formats -/

/-- A number of a format is its own nearest number, however it is given. -/
theorem BinaryFormat.magnitude_of_value {format : BinaryFormat} (hprecision : 0 < format.precision)
    {m m' : Nat} {e e' : Int} (h : format.Canonical m e) (hvalue : (m' * 2 ^ e' : ℚ) = m * 2 ^ e)
    (negative : Bool) :
    format.magnitude (.finite negative m' e') = min (format.pattern m e) format.infinityBits := by
  rw [magnitude]
  obtain rfl | hpos := Nat.eq_zero_or_pos m
  · have hzero : m' = 0 := by
      rw [Nat.cast_zero, zero_mul] at hvalue
      exact_mod_cast (mul_eq_zero.mp hvalue).resolve_right (two_zpow_pos e').ne'
    have hexponent := h.leading.resolve_left (Nat.not_le_of_lt (twoTo_pos _))
    rw [hzero, Nat.zero_mul, nearest, if_pos rfl, pattern, hexponent, Int.add_left_neg, Int.toNat_zero,
      Nat.zero_mul, Nat.zero_add, Nat.zero_min]
  · have hvalue' : ((m' * twoTo e'.toNat : Nat) : ℚ) / (twoTo (-e').toNat : Nat) = m * 2 ^ e := by
      rw [← hvalue, two_zpow]
      push_cast
      ring
    have hpos' : 0 < m' := by
      refine Nat.pos_of_ne_zero fun hzero => ?_
      rw [hzero, Nat.cast_zero, zero_mul] at hvalue
      have : (0 : ℚ) < m * 2 ^ e := mul_pos (by exact_mod_cast hpos) (two_zpow_pos e)
      exact this.ne hvalue
    refine nearest_of_contains hprecision h hpos (Nat.mul_pos hpos' (twoTo_pos _)) (twoTo_pos _) ?_
    rw [hvalue']
    exact contains_self hpos

/-- The numbers of the 32-bit format are among those of the 64-bit format. -/
theorem exists_canonical64 {m : Nat} {e : Int} (h : binary32.Canonical m e)
    (hfinite : binary32.pattern m e < binary32.infinityBits) :
    ∃ m' e', binary64.Canonical m' e' ∧ binary64.pattern m' e' < binary64.infinityBits ∧
      (m' * 2 ^ e' : ℚ) = m * 2 ^ e := by
  have hm : m < 2 ^ 24 := h.mantissa_lt
  have hleast : -149 ≤ e := h.least
  have hmost : e < 128 := by
    by_contra hlarge
    have : 277 * 2 ^ 23 ≤ (e + 149).toNat * 2 ^ 23 :=
      Nat.mul_le_mul_right _ (by omega)
    change (e + 149).toNat * 2 ^ 23 + m < 255 * 2 ^ 23 at hfinite
    omega
  obtain rfl | hpos := Nat.eq_zero_or_pos m
  · refine ⟨0, -1074, ⟨by decide, by decide, .inr rfl⟩, by decide, ?_⟩
    rw [Nat.cast_zero, zero_mul, zero_mul]
  -- the mantissa is shifted until its leading bit is in place
  have hlog : m.log2 < 24 := (Nat.log2_lt (Nat.ne_of_gt hpos)).mpr hm
  have hlow := Nat.log2_self_le (Nat.ne_of_gt hpos)
  have hhigh := Nat.lt_log2_self (n := m)
  obtain ⟨shift, hshift⟩ : ∃ shift : Nat, m.log2 + shift = 52 := ⟨52 - m.log2, by omega⟩
  have hlow' : 2 ^ 52 ≤ m * 2 ^ shift := by
    rw [← hshift, Nat.pow_add]
    exact Nat.mul_le_mul_right _ hlow
  have hhigh' : m * 2 ^ shift < 2 ^ 53 := by
    rw [show 53 = m.log2 + 1 + shift by omega, Nat.pow_add]
    exact Nat.mul_lt_mul_of_pos_right hhigh (Nat.two_pow_pos _)
  have hcanonical : binary64.Canonical (m * 2 ^ shift) (e - shift) :=
    ⟨show -1074 ≤ e - shift by omega, hhigh', .inl hlow'⟩
  have hvalue : ((m * 2 ^ shift : Nat) * 2 ^ (e - shift) : ℚ) = m * 2 ^ e := by
    rw [zpow_sub₀ two_ne_zero, zpow_natCast]
    push_cast
    field_simp
  refine ⟨_, _, hcanonical, (finite64_iff hcanonical).mpr ?_, hvalue⟩
  rw [hvalue]
  calc (m * 2 ^ e : ℚ) < 2 ^ 24 * 2 ^ e :=
        mul_lt_mul_of_pos_right (by exact_mod_cast hm) (two_zpow_pos e)
    _ ≤ 2 ^ (1024 : ℤ) := by
      rw [← zpow_natCast, ← zpow_add₀ two_ne_zero]
      exact zpow_le_zpow_right₀ one_le_two (by push_cast; omega)

/-- What is not a number stays so, an infinity keeps its sign, and a number keeps its sign and its value
when it is widened. -/
theorem decode64_widen (x : Float32) : match decode32 x with
    | .nan => decode64 (widen x) = .nan
    | .infinite negative => decode64 (widen x) = .infinite negative
    | .finite negative m e => ∃ m' e', decode64 (widen x) = .finite negative m' e' ∧
        (m' * 2 ^ e' : ℚ) = m * 2 ^ e := by
  rw [widen]
  cases hdecode : decode32 x with
  | nan => rfl
  | infinite negative => cases negative <;> rfl
  | finite negative m e =>
    obtain ⟨hcanonical, hfinite, -⟩ := eq_ofMagnitude32_of_finite hdecode
    obtain ⟨m', e', hcanonical', hfinite', hvalue⟩ := exists_canonical64 hcanonical hfinite
    refine ⟨m', e', ?_, hvalue⟩
    rw [BinaryFormat.magnitude_of_value (by decide) hcanonical' hvalue.symm,
      Nat.min_eq_left hfinite'.le]
    exact decode64_of_canonical hcanonical' hfinite' negative

/-- Narrowing undoes widening. -/
theorem narrow_widen (x : Float32) : narrow (widen x) = x := by
  have hwiden := decode64_widen x
  rw [narrow]
  cases hdecode : decode32 x with
  | nan =>
    rw [hdecode] at hwiden
    rw [hwiden]
    exact (eq_ofMagnitude32_of_nan hdecode).symm
  | infinite negative =>
    rw [hdecode] at hwiden
    rw [hwiden]
    exact (eq_ofMagnitude32_of_infinite hdecode).symm
  | finite negative m e =>
    rw [hdecode] at hwiden
    obtain ⟨m', e', hwide, hvalue⟩ := hwiden
    obtain ⟨hcanonical, hfinite, hx⟩ := eq_ofMagnitude32_of_finite hdecode
    rw [hwide, BinaryFormat.magnitude_of_value (by decide) hcanonical hvalue,
      Nat.min_eq_left hfinite.le]
    exact hx.symm

end AdaptiveConsensus.Decimal
