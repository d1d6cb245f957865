import Mathlib
import AdaptiveConsensus.Decimal.Binary

/-!
# Numbers and their bit patterns

The patterns of the finite numbers of one sign count them from zero upwards: `pattern` gives the place
of `mantissa · 2^exponent`, and what a pattern stands for is the number at its place.

- `BinaryFormat.decode_eq_finite`: the number that a pattern stands for is in canonical form and has
  this pattern.
- `Float.ofBits_toBits`: a number is its bits; there is one pattern for what is not a number.
- `eq_ofMagnitude64_of_finite`, `eq_ofMagnitude64_of_infinite`, `eq_ofMagnitude64_of_nan`: a 64-bit
  number is rebuilt from what it stands for.
-/

namespace AdaptiveConsensus.Decimal

open Float.Model (Format)
open Float.Model.UnpackedFloat (Sign packComponents unpackSign unpackExponent unpackMantissa unpack pack
  packedNaN)

/-! ## Packed numbers -/

section Packing

variable {spec : Format} (b : BitVec spec.numBits)

theorem toNat_unpackMantissa :
    (unpackMantissa b).toNat = b.toNat % 2 ^ spec.mantissaBitsWithoutImplicit := by
  have hm := spec.hm
  rw [unpackMantissa, BitVec.toNat_cast, BitVec.extractLsb_toNat, Nat.shiftRight_zero,
    show spec.mantissaBitsWithoutImplicit - 1 - 0 + 1 = spec.mantissaBitsWithoutImplicit by omega]

theorem toNat_unpackExponent : (unpackExponent b).toNat =
    b.toNat / 2 ^ spec.mantissaBitsWithoutImplicit % 2 ^ spec.exponentBits := by
  have he := spec.he
  rw [unpackExponent, BitVec.toNat_cast, BitVec.extractLsb_toNat, Nat.shiftRight_eq_div_pow,
    show spec.mantissaBitsWithoutImplicit + spec.exponentBits - 1 - spec.mantissaBitsWithoutImplicit + 1
      = spec.exponentBits by omega]

theorem toBitVec_ofBitVec (s : BitVec 1) : (Sign.ofBitVec s).toBitVec = s := by
  revert s
  decide

/-- A pattern is its sign, its exponent field and its fraction field, side by side. -/
theorem packComponents_unpack :
    packComponents spec (Sign.ofBitVec (unpackSign b)) (unpackExponent b) (unpackMantissa b) = b := by
  have hm := spec.hm
  have he := spec.he
  ext i hi
  have hbound : i < 1 + spec.exponentBits + spec.mantissaBitsWithoutImplicit := hi
  rw [packComponents, toBitVec_ofBitVec, ← BitVec.getLsbD_eq_getElem, ← BitVec.getLsbD_eq_getElem,
    BitVec.getLsbD_append, BitVec.getLsbD_append]
  simp only [unpackMantissa, unpackExponent, unpackSign, BitVec.getLsbD_cast, BitVec.getLsbD_extractLsb]
  -- in each of the three fields the bit is found where it was
  split
  · rw [decide_eq_true (by omega), Bool.true_and, Nat.zero_add]
  · split
    · rw [decide_eq_true (by omega), Bool.true_and, Nat.add_sub_cancel' (by omega)]
    · rw [decide_eq_true (by omega), Bool.true_and]
      congr 1
      omega

/-- A number below the least normal one is packed as its mantissa. -/
theorem pack_subnormal (hwide : 1 < spec.exponentBits) (s : Sign)
    {fraction : BitVec spec.mantissaBitsWithoutImplicit} {e : Int}
    (he : e + spec.exponentBias + spec.mantissaBitsWithoutImplicit = 1) (hpos : 0 < fraction.toNat) :
    pack spec (.finite s fraction.toNat e hpos) = packComponents spec s 0#_ fraction := by
  have hfield : ¬ 2 ^ spec.exponentBits ≤ (1 : Int).toNat + 1 := by
    have := Nat.pow_le_pow_right (n := 2) (by decide) hwide
    omega
  have hlog : fraction.toNat.log2 < spec.mantissaBitsWithoutImplicit :=
    (Nat.log2_lt (Nat.ne_of_gt hpos)).mpr fraction.isLt
  have hshort : ¬ fraction.toNat.log2 + 1 = spec.mantissaBits := by
    rw [Format.mantissaBits]
    omega
  rw [pack, he, if_neg hfield, if_neg hshort, BitVec.ofNat_toNat, BitVec.setWidth_eq]

theorem toNat_one_append {width : Nat} (fraction : BitVec width) :
    (1#1 ++ fraction).toNat = 2 ^ width + fraction.toNat := by
  rw [BitVec.toNat_append, ← Nat.shiftLeft_add_eq_or_of_lt fraction.isLt, Nat.shiftLeft_eq,
    BitVec.toNat_ofNat, Nat.one_mod, Nat.one_mul]

/-- A normal number is packed without its leading bit. -/
theorem pack_normal (s : Sign) {field : BitVec spec.exponentBits}
    {fraction : BitVec spec.mantissaBitsWithoutImplicit} {e : Int}
    (he : e + spec.exponentBias + spec.mantissaBitsWithoutImplicit = field.toNat) (hfield : field ≠ -1#_)
    (hpos : 0 < (1#1 ++ fraction).toNat) :
    pack spec (.finite s (1#1 ++ fraction).toNat e hpos) = packComponents spec s field fraction := by
  have hfraction := fraction.isLt
  have hlog : (1#1 ++ fraction).toNat.log2 = spec.mantissaBitsWithoutImplicit := by
    rw [Nat.log2_eq_iff (Nat.ne_of_gt hpos), toNat_one_append, Nat.pow_succ]
    omega
  have hrest : BitVec.ofNat spec.mantissaBitsWithoutImplicit (1#1 ++ fraction).toNat = fraction := by
    apply BitVec.eq_of_toNat_eq
    rw [BitVec.toNat_ofNat, toNat_one_append, Nat.add_mod_left, Nat.mod_eq_of_lt hfraction]
  -- the field of all ones is that of infinity
  have hinside : ¬ 2 ^ spec.exponentBits ≤ field.toNat + 1 := by
    have hlt := field.isLt
    have hne : field.toNat ≠ 2 ^ spec.exponentBits - 1 := by
      intro h
      refine hfield (BitVec.eq_of_toNat_eq ?_)
      rw [BitVec.neg_one_eq_allOnes, BitVec.toNat_allOnes, h]
    omega
  rw [pack, he, Int.toNat_natCast, if_neg hinside, hlog, if_pos (by rw [Format.mantissaBits, Nat.add_comm]), hrest,
    BitVec.ofNat_toNat, BitVec.setWidth_eq]

/-- Unpacking loses nothing but the payload of what is not a number. -/
theorem pack_unpack (hwide : 1 < spec.exponentBits) {b : BitVec spec.numBits} (hvalid : spec.Valid b) :
    pack spec (unpack spec b) = b := by
  have hparts := packComponents_unpack b
  rw [unpack]
  by_cases hones : unpackExponent b = -1#_
  · rw [if_pos hones]
    by_cases hfraction : unpackMantissa b = 0#_
    · rw [if_pos hfraction]
      rw [hones, hfraction] at hparts
      exact hparts
    · rw [if_neg hfraction]
      exact (hvalid.eq_packedNaN hones hfraction).symm
  · rw [if_neg hones]
    by_cases hzero : unpackExponent b = 0#_
    · rw [if_pos hzero]
      by_cases hfraction : unpackMantissa b = 0#_
      · rw [dif_pos hfraction]
        rw [hzero, hfraction] at hparts
        exact hparts
      · rw [dif_neg hfraction]
        rw [hzero] at hparts
        refine (pack_subnormal hwide _ ?_ _).trans hparts
        rw [hzero, BitVec.toNat_ofNat, Nat.zero_mod]
        omega
    · rw [if_neg hzero]
      refine (pack_normal _ ?_ hones _).trans hparts
      omega

end Packing

/-- A pattern is valid unless it says that it is no number. -/
theorem valid_of_le_infinity {spec : Format} {b : BitVec spec.numBits}
    (h : b.toNat % 2 ^ (spec.exponentBits + spec.mantissaBitsWithoutImplicit) ≤
      (2 ^ spec.exponentBits - 1) * 2 ^ spec.mantissaBitsWithoutImplicit) : spec.Valid b := by
  refine ⟨fun hones hfraction => absurd ?_ hfraction⟩
  have hfield := congrArg BitVec.toNat hones
  rw [toNat_unpackExponent, BitVec.neg_one_eq_allOnes, BitVec.toNat_allOnes] at hfield
  rw [Nat.add_comm, Nat.pow_add, Nat.mod_mul, hfield, Nat.mul_comm] at h
  apply BitVec.eq_of_toNat_eq
  rw [toNat_unpackMantissa, BitVec.toNat_ofNat, Nat.zero_mod]
  omega

/-- There is one valid pattern that says that it is no number. -/
theorem eq_packedNaN {spec : Format} {b : BitVec spec.numBits} (hvalid : spec.Valid b)
    (h : (2 ^ spec.exponentBits - 1) * 2 ^ spec.mantissaBitsWithoutImplicit <
      b.toNat % 2 ^ (spec.exponentBits + spec.mantissaBitsWithoutImplicit)) : b = packedNaN spec := by
  rw [Nat.add_comm, Nat.pow_add, Nat.mod_mul, Nat.mul_comm] at h
  have hfraction := Nat.mod_lt b.toNat (Nat.two_pow_pos spec.mantissaBitsWithoutImplicit)
  have hfield := Nat.mod_lt (b.toNat / 2 ^ spec.mantissaBitsWithoutImplicit)
    (Nat.two_pow_pos spec.exponentBits)
  have hones : 2 ^ spec.exponentBits - 1 ≤
      b.toNat / 2 ^ spec.mantissaBitsWithoutImplicit % 2 ^ spec.exponentBits := by
    by_contra hlt
    have := Nat.mul_le_mul_left (2 ^ spec.mantissaBitsWithoutImplicit) (Nat.lt_of_not_le hlt)
    rw [Nat.mul_succ] at this
    omega
  refine hvalid.eq_packedNaN (BitVec.eq_of_toNat_eq ?_) fun hzero => ?_
  · rw [toNat_unpackExponent, BitVec.neg_one_eq_allOnes, BitVec.toNat_allOnes]
    omega
  · have hnone := congrArg BitVec.toNat hzero
    rw [toNat_unpackMantissa, BitVec.toNat_ofNat, Nat.zero_mod] at hnone
    have := Nat.mul_le_mul_left (2 ^ spec.mantissaBitsWithoutImplicit) (Nat.le_sub_one_of_lt hfield)
    omega

/-- A number is its bits. -/
theorem ofBits_toBits (x : Float) : Float.ofBits x.toBits = x := by
  obtain ⟨bits, hvalid⟩ := x
  show Float.ofModel (Float.Model.ofBits bits) = Float.ofModel ⟨bits, hvalid⟩
  rw [Float.Model.ofBits, Float.Model.pack]
  congr 2
  exact congrArg UInt64.ofBitVec (pack_unpack (by decide) hvalid)

/-- There is one pattern for what is not a number. -/
theorem toBits_of_nan {x : Float} (h : 2047 * 2 ^ 52 < x.toBits.toNat % 2 ^ 63) :
    x.toBits.toNat = 0x7FF8000000000000 :=
  congrArg BitVec.toNat (eq_packedNaN x.toModel.valid h)

/-! ## What patterns stand for -/

namespace BinaryFormat

variable (format : BinaryFormat)

/-- Numbers in canonical form: the mantissa has all its bits unless the exponent is the least one. -/
structure Canonical (mantissa : Nat) (exponent : Int) : Prop where
  least : -(format.depth : Int) ≤ exponent
  mantissa_lt : mantissa < twoTo format.precision
  leading : twoTo (format.precision - 1) ≤ mantissa ∨ exponent = -(format.depth : Int)

/-- The pattern of `mantissa · 2^exponent`. -/
def pattern (mantissa : Nat) (exponent : Int) : Nat :=
  (exponent + format.depth).toNat * twoTo (format.precision - 1) + mantissa

variable {format}

/-- A mantissa has one bit more than a fraction. -/
theorem twoTo_precision (hprecision : 0 < format.precision) :
    twoTo format.precision = 2 * twoTo (format.precision - 1) := by
  obtain ⟨p, hp⟩ := Nat.exists_eq_add_of_lt hprecision
  rw [hp, Nat.zero_add, Nat.add_sub_cancel]
  exact Nat.pow_succ'

/-- A pattern that stands for a number is the pattern of that number. -/
theorem decode_eq_finite (hprecision : 0 < format.precision) {bits : Nat} {negative : Bool}
    {mantissa : Nat} {exponent : Int} (h : format.decode bits = .finite negative mantissa exponent) :
    negative = decide (format.signBit ≤ bits) ∧ format.Canonical mantissa exponent ∧
      format.pattern mantissa exponent = bits % format.signBit ∧
      bits % format.signBit < format.infinityBits := by
  have hunit : 0 < twoTo (format.precision - 1) := twoTo_pos _
  have hdouble := twoTo_precision hprecision
  have hfraction := Nat.mod_lt (bits % format.signBit) hunit
  have hparts := Nat.div_add_mod (bits % format.signBit) (twoTo (format.precision - 1))
  rw [decode] at h
  generalize bits % format.signBit = magnitude at *
  by_cases hnan : format.infinityBits < magnitude
  · rw [if_pos hnan] at h
    cases h
  · rw [if_neg hnan] at h
    by_cases hinfinite : magnitude = format.infinityBits
    · rw [if_pos hinfinite] at h
      cases h
    · rw [if_neg hinfinite] at h
      by_cases hfield : magnitude / twoTo (format.precision - 1) = 0
      · -- without an exponent field the fraction is the mantissa
        rw [if_pos hfield] at h
        cases h
        refine ⟨rfl, ⟨Int.le_refl _, by omega, .inr rfl⟩, ?_, by omega⟩
        rw [pattern, Int.add_left_neg, Int.toNat_zero, Nat.zero_mul, Nat.zero_add]
        rwa [hfield, Nat.mul_zero, Nat.zero_add] at hparts
      · -- with one, a leading bit stands before the fraction and takes one off the field
        rw [if_neg hfield] at h
        cases h
        obtain ⟨field, hsucc⟩ := Nat.exists_eq_succ_of_ne_zero hfield
        refine ⟨rfl, ⟨by omega, by omega, .inl (Nat.le_add_left _ _)⟩, ?_, by omega⟩
        rw [hsucc, Nat.mul_succ] at hparts
        rw [hsucc]
        have hplace : (((field.succ : Nat) : Int) - 1 - format.depth + format.depth).toNat = field := by
          omega
        rw [pattern, hplace, Nat.mul_comm field]
        omega

theorem decode_eq_infinite {bits : Nat} {negative : Bool}
    (h : format.decode bits = .infinite negative) :
    negative = decide (format.signBit ≤ bits) ∧ bits % format.signBit = format.infinityBits := by
  rw [decode] at h
  split at h
  · cases h
  · split at h
    · cases h
      exact ⟨rfl, ‹_›⟩
    · split at h <;> cases h

theorem decode_eq_nan {bits : Nat} (h : format.decode bits = .nan) :
    format.infinityBits < bits % format.signBit := by
  rw [decode] at h
  split at h
  · assumption
  · split at h
    · cases h
    · split at h <;> cases h

theorem infinityBits_le_signBit (hprecision : 0 < format.precision) :
    format.infinityBits ≤ format.signBit := by
  have hsplit : format.signBit = twoTo format.exponentBits * twoTo (format.precision - 1) := by
    rw [signBit, Nat.add_sub_assoc hprecision]
    exact Nat.pow_add 2 _ _
  rw [hsplit]
  exact Nat.mul_le_mul_right _ (Nat.sub_le _ _)

/-- A magnitude is found under either sign. -/
theorem signed_mod {magnitude : Nat} (h : magnitude < format.signBit) (negative : Bool) :
    (if negative then magnitude + format.signBit else magnitude) % format.signBit = magnitude ∧
      decide (format.signBit ≤ if negative then magnitude + format.signBit else magnitude) = negative := by
  cases negative with
  | false =>
    rw [if_neg Bool.false_ne_true]
    exact ⟨Nat.mod_eq_of_lt h, decide_eq_false (Nat.not_le_of_lt h)⟩
  | true =>
    rw [if_pos rfl, Nat.add_mod_right]
    exact ⟨Nat.mod_eq_of_lt h, decide_eq_true (Nat.le_add_left _ _)⟩

/-- A pattern is made of its sign and its magnitude. -/
theorem signed_parts {bits : Nat} (h : bits < 2 * format.signBit) :
    (if decide (format.signBit ≤ bits) = true then bits % format.signBit + format.signBit
      else bits % format.signBit) = bits := by
  split <;> rename_i hle <;> rw [decide_eq_true_iff] at hle
  · rw [Nat.mod_eq_sub_mod hle, Nat.mod_eq_of_lt (by omega), Nat.sub_add_cancel hle]
  · exact Nat.mod_eq_of_lt (Nat.lt_of_not_le hle)

/-- The pattern of a number in canonical form stands for it. -/
theorem decode_pattern (hprecision : 0 < format.precision) {mantissa : Nat} {exponent : Int}
    (hcanonical : format.Canonical mantissa exponent)
    (hfinite : format.pattern mantissa exponent < format.infinityBits) (negative : Bool) :
    format.decode (if negative then format.pattern mantissa exponent + format.signBit
      else format.pattern mantissa exponent) = .finite negative mantissa exponent := by
  have hunit : 0 < twoTo (format.precision - 1) := twoTo_pos _
  have hdouble := twoTo_precision hprecision
  obtain ⟨hleast, hmantissa, hleading⟩ := hcanonical
  obtain ⟨hmagnitude, hnegative⟩ :=
    signed_mod (hfinite.trans_le (infinityBits_le_signBit hprecision)) negative
  rw [decode, hmagnitude, hnegative, if_neg (Nat.not_lt_of_le hfinite.le), if_neg (Nat.ne_of_lt hfinite)]
  obtain ⟨place, hplace⟩ : ∃ place : Nat, exponent + format.depth = place :=
    ⟨_, (Int.toNat_of_nonneg (by omega)).symm⟩
  rw [pattern, hplace, Int.toNat_natCast]
  by_cases hshort : mantissa < twoTo (format.precision - 1)
  · -- without a leading bit the exponent is the least one
    have hexponent := hleading.resolve_left (Nat.not_le_of_lt hshort)
    obtain rfl : place = 0 := by omega
    rw [Nat.zero_mul, Nat.zero_add, Nat.div_eq_of_lt hshort, if_pos rfl, Nat.mod_eq_of_lt hshort,
      hexponent]
  · obtain ⟨fraction, rfl⟩ := Nat.exists_eq_add_of_le (Nat.not_lt.mp hshort)
    have hfraction : fraction < twoTo (format.precision - 1) := by omega
    have hfield : place * twoTo (format.precision - 1) + (twoTo (format.precision - 1) + fraction) =
        fraction + (place + 1) * twoTo (format.precision - 1) := by
      rw [Nat.succ_mul]
      omega
    rw [hfield, Nat.add_mul_div_right _ _ hunit, Nat.div_eq_of_lt hfraction, Nat.add_mul_mod_self_right,
      Nat.mod_eq_of_lt hfraction, if_neg (by omega), Nat.add_comm fraction]
    congr 1
    omega

end BinaryFormat

/-! ## 64-bit numbers -/

/-- A valid pattern is the pattern of its number. -/
theorem toBits_ofBits {bits : UInt64} (h : Format.binary64.Valid bits.toBitVec) :
    (Float.ofBits bits).toBits = bits := by
  show UInt64.ofBitVec (pack Format.binary64 (unpack Format.binary64 bits.toBitVec)) = bits
  rw [pack_unpack (by decide) h]

/-- A magnitude that is a number is found again in the number. -/
theorem decode64_ofMagnitude64 {magnitude : Nat} (h : magnitude ≤ binary64.infinityBits)
    (negative : Bool) : decode64 (ofMagnitude64 negative magnitude) =
      binary64.decode (if negative then magnitude + binary64.signBit else magnitude) := by
  have hlt : magnitude < binary64.signBit := h.trans_lt (by decide)
  have hsign : binary64.signBit = 2 ^ 63 := rfl
  have hword : (UInt64.ofNat (if negative then magnitude + binary64.signBit else magnitude)).toNat =
      if negative then magnitude + binary64.signBit else magnitude := by
    rw [UInt64.toNat_ofNat', Nat.mod_eq_of_lt]
    split <;> omega
  have hvalid : Format.binary64.Valid
      (UInt64.ofNat (if negative then magnitude + binary64.signBit else magnitude)).toBitVec := by
    refine valid_of_le_infinity ?_
    rw [UInt64.toNat_toBitVec, hword]
    exact (BinaryFormat.signed_mod hlt negative).1.trans_le h
  rw [decode64, ofMagnitude64, toBits_ofBits hvalid, hword]

/-- A number in canonical form is found again in its 64-bit number. -/
theorem decode64_of_canonical {mantissa : Nat} {exponent : Int}
    (hcanonical : binary64.Canonical mantissa exponent)
    (hfinite : binary64.pattern mantissa exponent < binary64.infinityBits) (negative : Bool) :
    decode64 (ofMagnitude64 negative (binary64.pattern mantissa exponent)) =
      .finite negative mantissa exponent := by
  rw [decode64_ofMagnitude64 hfinite.le]
  exact BinaryFormat.decode_pattern (by decide) hcanonical hfinite negative

/-- A number is its sign and its magnitude. -/
theorem eq_ofMagnitude64 (x : Float) :
    x = ofMagnitude64 (decide (binary64.signBit ≤ x.toBits.toNat))
      (x.toBits.toNat % binary64.signBit) := by
  rw [ofMagnitude64, BinaryFormat.signed_parts (show _ < 2 * 2 ^ 63 from x.toBits.toNat_lt),
    UInt64.ofNat_toNat, ofBits_toBits]

theorem eq_ofMagnitude64_of_finite {x : Float} {negative : Bool} {mantissa : Nat} {exponent : Int}
    (h : decode64 x = .finite negative mantissa exponent) :
    binary64.Canonical mantissa exponent ∧
      binary64.pattern mantissa exponent < binary64.infinityBits ∧
      x = ofMagnitude64 negative (binary64.pattern mantissa exponent) := by
  obtain ⟨hnegative, hcanonical, hpattern, hfinite⟩ :=
    BinaryFormat.decode_eq_finite (by decide) h
  refine ⟨hcanonical, hpattern ▸ hfinite, ?_⟩
  rw [hpattern, hnegative]
  exact eq_ofMagnitude64 x

theorem eq_ofMagnitude64_of_infinite {x : Float} {negative : Bool}
    (h : decode64 x = .infinite negative) : x = ofMagnitude64 negative binary64.infinityBits := by
  obtain ⟨hnegative, hmagnitude⟩ := BinaryFormat.decode_eq_infinite h
  rw [hnegative, ← hmagnitude]
  exact eq_ofMagnitude64 x

theorem eq_ofMagnitude64_of_nan {x : Float} (h : decode64 x = .nan) :
    x = ofMagnitude64 false (binary64.infinityBits + 1) := by
  have hbits : x.toBits = UInt64.ofNat 0x7FF8000000000000 := by
    rw [← toBits_of_nan (BinaryFormat.decode_eq_nan h), UInt64.ofNat_toNat]
  rw [← ofBits_toBits x, hbits]
  rfl

end AdaptiveConsensus.Decimal
