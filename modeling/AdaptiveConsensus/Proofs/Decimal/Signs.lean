import AdaptiveConsensus.Proofs.Decimal.Order

/-!
# Numbers that are not negative

A number whose sign is plus stays one under sums and products, however they are rounded, and zero is
not above it. The magnitude of a number has the sign plus.

- `plusSign_unpack_pack`: packing keeps the sign plus.
- `PlusSign.add`, `PlusSign.finite_mul`, `PlusSign.abs`: sums, products and magnitudes.
- `le_of_zero`: zero is at most a number with the sign plus.
- `eq_or_zero_of_beq`: only the two zeros are equal and not the same.
- `abs_sub_of_beq`, `abs_sub_congr`: the distances of equal numbers.
-/

namespace AdaptiveConsensus.Decimal

open Float.Model (UnpackedFloat Format)
open Float.Model.UnpackedFloat (Sign pack unpack packComponents packedInfinity packedZero unpackSign
  unpackExponent unpackMantissa roundWithAccuracy round normalize)

/-- A number with the sign plus. -/
def PlusSign : UnpackedFloat → Prop
  | .infinity s | .zero s | .finite s _ _ _ => s = .positive
  | .notANumber => False

@[simp] theorem unpackSign_packComponents {spec : Format} {s : Sign} {field : BitVec spec.exponentBits}
    {fraction : BitVec spec.mantissaBitsWithoutImplicit} :
    unpackSign (packComponents spec s field fraction) = s.toBitVec := by
  ext i hi
  obtain rfl : i = 0 := by omega
  simp [unpackSign, packComponents, BitVec.getLsbD_append, BitVec.getElem_append]

@[simp] theorem ofBitVec_toBitVec (s : Sign) : Sign.ofBitVec s.toBitVec = s := by
  cases s <;> rfl

/-- What is packed with the sign plus is unpacked with it, unless its fields are those of what is not a
number. -/
theorem plusSign_unpack_packComponents {field : BitVec 11} {fraction : BitVec 52}
    (h : field = -1#11 → fraction = 0#52) :
    PlusSign (unpack Format.binary64 (packComponents Format.binary64 .positive field fraction)) := by
  simp only [unpack, unpackSign_packComponents, Float.Model.UnpackedFloat.unpackExponent_packComponents,
    Float.Model.UnpackedFloat.unpackMantissa_packComponents, ofBitVec_toBitVec]
  by_cases hones : field = -1#11
  · rw [if_pos hones, if_pos (h hones)]
    exact rfl
  · rw [if_neg hones]
    split
    · split <;> exact rfl
    · exact rfl

theorem plusSign_unpack_pack {x : UnpackedFloat} (h : PlusSign x) :
    PlusSign (unpack Format.binary64 (pack Format.binary64 x)) := by
  cases x with
  | notANumber => exact h.elim
  | infinity s =>
    obtain rfl : s = .positive := h
    exact plusSign_unpack_packComponents fun _ => rfl
  | zero s =>
    obtain rfl : s = .positive := h
    exact plusSign_unpack_packComponents fun _ => rfl
  | finite s m e hm =>
    obtain rfl : s = .positive := h
    rw [pack]
    dsimp only
    split
    · exact plusSign_unpack_packComponents fun _ => rfl
    · next hinside =>
      split
      · -- a field of all ones would have been infinity
        refine plusSign_unpack_packComponents fun hones => (hinside ?_).elim
        have := congrArg BitVec.toNat hones
        rw [BitVec.toNat_ofNat] at this
        change _ = 2047 at this
        show 2 ^ 11 ≤ _
        have hlt := Nat.mod_le (e + Format.binary64.exponentBias +
          Format.binary64.mantissaBitsWithoutImplicit).toNat (2 ^ 11)
        omega
      · exact plusSign_unpack_packComponents fun hones => nomatch hones

/-! ## Arithmetic -/

theorem plusSign_roundWithAccuracy (spec : Format) (m : Nat) (e : Int)
    (accuracy : UnpackedFloat.Accuracy) :
    PlusSign (roundWithAccuracy spec .positive m e accuracy) := by
  rw [roundWithAccuracy]
  dsimp only
  split <;> exact rfl

theorem plusSign_normalize (spec : Format) {m : Int} (hm : 0 ≤ m) (e : Int) :
    PlusSign (normalize spec m e .positive) := by
  rw [UnpackedFloat.normalize]
  rcases hm.lt_or_eq with hpos | rfl
  · rw [Int.compare_eq_gt.mpr hpos]
    exact plusSign_roundWithAccuracy ..
  · exact rfl

namespace PlusSign

variable {a b : UnpackedFloat}

theorem finite_mul {m : Nat} {e : Int} {hm : 0 < m} (hb : PlusSign b) :
    PlusSign (UnpackedFloat.mul Format.binary64 (.finite .positive m e hm) b) := by
  cases b with
  | notANumber => exact hb.elim
  | infinity s => obtain rfl : s = .positive := hb; exact rfl
  | zero s => obtain rfl : s = .positive := hb; exact rfl
  | finite s m' e' hm' =>
    obtain rfl : s = .positive := hb
    exact plusSign_roundWithAccuracy ..

theorem add (ha : PlusSign a) (hb : PlusSign b) : PlusSign (UnpackedFloat.add Format.binary64 a b) := by
  cases a with
  | notANumber => exact ha.elim
  | infinity s =>
    obtain rfl : s = .positive := ha
    cases b with
    | notANumber => exact hb.elim
    | infinity s' => obtain rfl : s' = .positive := hb; exact rfl
    | zero s' => exact rfl
    | finite s' m' e' hm' => exact rfl
  | zero s =>
    obtain rfl : s = .positive := ha
    cases b with
    | notANumber => exact hb.elim
    | infinity s' => exact hb
    | zero s' => obtain rfl : s' = .positive := hb; exact rfl
    | finite s' m' e' hm' => exact hb
  | finite s m e hm =>
    obtain rfl : s = .positive := ha
    cases b with
    | notANumber => exact hb.elim
    | infinity s' => exact hb
    | zero s' => exact rfl
    | finite s' m' e' hm' =>
      obtain rfl : s' = .positive := hb
      exact plusSign_normalize _ (Int.add_nonneg (Int.natCast_nonneg _) (Int.natCast_nonneg _)) _

theorem abs (ha : a.isNaN = false) : PlusSign a.abs := by
  cases a with
  | notANumber => nomatch ha
  | infinity s => exact rfl
  | zero s => exact rfl
  | finite s m e hm => exact rfl

end PlusSign

/-! ## 64-bit numbers -/

variable {x y b b' : Float}

/-- Zero is at most a number with the sign plus. -/
theorem le_of_zero {s : Sign} (hx : x.toModel.unpack = .zero s) (hy : PlusSign y.toModel.unpack) :
    x ≤ y := by
  show decide ((UnpackedFloat.compare x.toModel.unpack y.toModel.unpack).any (·.isLE) = true) = true
  rw [decide_eq_true_iff, hx]
  revert hy
  cases y.toModel.unpack with
  | notANumber => exact False.elim
  | infinity s' => rintro rfl; exact rfl
  | zero s' => exact fun _ => rfl
  | finite s' m e hm => rintro rfl; exact rfl

/-- Numbers that are equal are the same number, but for the two zeros. -/
theorem eq_or_zero_of_beq (h : (x == y) = true) : x = y ∨
    ∃ s s', x.toModel.unpack = .zero s ∧ y.toModel.unpack = .zero s' := by
  obtain ⟨hx, hy, hplace⟩ := beq_iff_place.mp h
  change x.toModel.unpack.isNaN = false at hx
  change y.toModel.unpack.isNaN = false at hy
  by_cases heq : x.toModel.unpack = y.toModel.unpack
  · exact .inl (eq_of_unpack heq)
  · refine .inr ?_
    revert hx hy hplace heq
    rcases x.toModel.unpack with (_ | _) | _ | _ | ⟨_ | _, m, e, h⟩ <;>
      rcases y.toModel.unpack with (_ | _) | _ | _ | ⟨_ | _, m', e', h'⟩ <;>
      simp +contextual [place, UnpackedFloat.isNaN]

/-- The distance of a number from one that equals it is zero. -/
theorem abs_sub_of_beq (hfinite : y.isFinite = true) (h : (x == y) = true) :
    (x - y).abs.toModel.unpack = .zero .positive := by
  have habs : ∀ s, unpack Format.binary64 (pack Format.binary64
      (unpack Format.binary64 (pack Format.binary64 (.zero s))).abs) = .zero .positive := by
    intro s
    cases s <;> rfl
  show unpack Format.binary64 (pack Format.binary64 (unpack Format.binary64 (pack Format.binary64
    (UnpackedFloat.sub Format.binary64 x.toModel.unpack y.toModel.unpack))).abs) = .zero .positive
  change y.toModel.unpack.isFinite = true at hfinite
  rcases eq_or_zero_of_beq h with rfl | ⟨s, s', hx, hy⟩
  · revert hfinite
    cases x.toModel.unpack with
    | notANumber => nofun
    | infinity s => nofun
    | zero s => cases s <;> exact fun _ => rfl
    | finite s m e hm =>
      intro
      simp only [UnpackedFloat.sub, Int.sub_self]
      exact habs .positive
  · rw [hx, hy, UnpackedFloat.sub]
    split <;> exact habs _

/-- The distance to a number does not tell the two zeros apart. -/
theorem abs_sub_congr (h : (b == b') = true) : (x - b).abs = (x - b').abs := by
  rcases eq_or_zero_of_beq h with rfl | ⟨s, s', hb, hb'⟩
  · rfl
  · apply eq_of_unpack
    show unpack Format.binary64 (pack Format.binary64 (unpack Format.binary64 (pack Format.binary64
        (UnpackedFloat.sub Format.binary64 x.toModel.unpack b.toModel.unpack))).abs) =
      unpack Format.binary64 (pack Format.binary64 (unpack Format.binary64 (pack Format.binary64
        (UnpackedFloat.sub Format.binary64 x.toModel.unpack b'.toModel.unpack))).abs)
    rw [hb, hb']
    cases x.toModel.unpack with
    | notANumber => rfl
    | infinity t => rfl
    | zero t => cases t <;> cases s <;> cases s' <;> rfl
    | finite t m e hm => rfl

theorem abs_congr (h : (b == b') = true) : b.abs = b'.abs := by
  rcases eq_or_zero_of_beq h with rfl | ⟨s, s', hb, hb'⟩
  · rfl
  · apply eq_of_unpack
    show unpack Format.binary64 (pack Format.binary64 b.toModel.unpack.abs) =
      unpack Format.binary64 (pack Format.binary64 b'.toModel.unpack.abs)
    rw [hb, hb']
    rfl

end AdaptiveConsensus.Decimal
