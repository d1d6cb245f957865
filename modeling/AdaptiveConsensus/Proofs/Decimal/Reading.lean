import AdaptiveConsensus.Decimal.Layout
import AdaptiveConsensus.Decimal.Read
import AdaptiveConsensus.Proofs.Decimal.Nearest
import AdaptiveConsensus.Proofs.Decimal.Shortest
import Mathlib.Data.List.TakeWhile

/-!
# Numbers read back

The text of a 64-bit number stands for it again. A decimal without exponent is read as the same
rational number in each of its three layouts; the shortest decimal of a number is in its neighbourhood,
and what is there is rounded to the number.

- `readDecimal_plainText`: a decimal keeps its value.
- `ofDecimal_of_contains`: rounding gives the number whose neighbourhood a decimal is in.
- `readFloat_display64`: a number is read back from its text, whatever it is.
-/

namespace AdaptiveConsensus.Decimal

/-! ## Digits -/

theorem digitsValue_toDigits (n : Nat) : digitsValue (Nat.toDigits 10 n) = n :=
  Nat.ofDigitChars_ten_toDigits

theorem digitsValue_append (left right : List Char) :
    digitsValue (left ++ right) = 10 ^ right.length * digitsValue left + digitsValue right := by
  show Nat.ofDigitChars 10 (left ++ right) 0 = _
  rw [Nat.ofDigitChars_append, Nat.ofDigitChars_eq_ofDigitChars_zero]
  rfl

theorem digitsValue_zeros (count : Nat) : digitsValue (zeros count) = 0 := by
  show Nat.ofDigitChars 10 (List.replicate count '0') 0 = 0
  rw [Nat.ofDigitChars_replicate_zero, Nat.mul_zero]

theorem isDigit_of_mem_toDigits {n : Nat} {c : Char} (hc : c ∈ Nat.toDigits 10 n) :
    c.isDigit = true :=
  Nat.isDigit_of_mem_toDigits (by decide) (by decide) hc

theorem isDigit_of_mem_zeros {count : Nat} {c : Char} (hc : c ∈ zeros count) : c.isDigit = true := by
  rw [zeros, List.mem_replicate] at hc
  rw [hc.2]
  rfl

/-! ## Decimals -/

theorem readDecimal_whole {digits : List Char} (hdigits : ∀ c ∈ digits, c.isDigit = true)
    (hne : digits ≠ []) : readDecimal digits = some ⟨digitsValue digits, 0⟩ := by
  have htake : digits.takeWhile Char.isDigit = digits := List.takeWhile_eq_self_iff.mpr hdigits
  have hdrop : digits.dropWhile Char.isDigit = [] := List.dropWhile_eq_nil_iff.mpr hdigits
  have hsome : digits.isEmpty = false := List.isEmpty_eq_false_iff.mpr hne
  rw [readDecimal, htake, hdrop]
  dsimp only
  rw [hsome, List.append_nil]
  rfl

theorem readDecimal_point {whole fraction : List Char} (hwhole : ∀ c ∈ whole, c.isDigit = true)
    (hfraction : ∀ c ∈ fraction, c.isDigit = true) (hne : whole ≠ []) :
    readDecimal (whole ++ '.' :: fraction) =
      some ⟨digitsValue (whole ++ fraction), -(fraction.length : Int)⟩ := by
  have htake : (whole ++ '.' :: fraction).takeWhile Char.isDigit = whole := by
    rw [List.takeWhile_append_of_pos hwhole, List.takeWhile_cons_of_neg (by decide), List.append_nil]
  have hdrop : (whole ++ '.' :: fraction).dropWhile Char.isDigit = '.' :: fraction := by
    rw [List.dropWhile_append_of_pos hwhole, List.dropWhile_cons_of_neg (by decide)]
  have hsome : whole.isEmpty = false := List.isEmpty_eq_false_iff.mpr hne
  rw [readDecimal, htake, hdrop]
  show (if whole.isEmpty && (fraction.takeWhile Char.isDigit).isEmpty then none
    else (readExponent (fraction.dropWhile Char.isDigit)).map fun e =>
      Number.mk (digitsValue (whole ++ fraction.takeWhile Char.isDigit))
        (e - (fraction.takeWhile Char.isDigit).length)) = _
  rw [List.takeWhile_eq_self_iff.mpr hfraction, List.dropWhile_eq_nil_iff.mpr hfraction, hsome]
  show some (Number.mk _ (0 - (fraction.length : Int))) = _
  rw [Int.zero_sub]

/-- A decimal is read as a decimal of its value, whether the point stands behind its digits, among them
or before them. -/
theorem readDecimal_plainText (d : Number) :
    ∃ d', readDecimal (plainText false d) = some d' ∧ d'.value = d.value := by
  have hdigits := fun c => isDigit_of_mem_toDigits (n := d.coefficient) (c := c)
  have hne : Nat.toDigits 10 d.coefficient ≠ [] := Nat.toDigits_ne_nil
  have hvalue := digitsValue_toDigits d.coefficient
  rw [plainText]
  generalize Nat.toDigits 10 d.coefficient = digits at *
  by_cases hwhole : 0 ≤ d.exponent
  · -- zeros behind the digits stand for the exponent
    rw [if_pos hwhole, if_neg Bool.false_ne_true, List.append_nil]
    refine ⟨_, readDecimal_whole ?_ (List.append_ne_nil_of_left_ne_nil hne _), ?_⟩
    · intro c hc
      exact (List.mem_append.mp hc).elim (hdigits c) isDigit_of_mem_zeros
    · rw [digitsValue_append, hvalue, digitsValue_zeros, Nat.add_zero, zeros, List.length_replicate,
        Number.value, Number.value, zpow_zero, mul_one, mul_comm, Nat.cast_mul, Nat.cast_pow,
        Nat.cast_ofNat, ← zpow_natCast, Int.toNat_of_nonneg hwhole]
  · rw [if_neg hwhole]
    by_cases hpoint : 0 < (digits.length : Int) + d.exponent
    · -- the point parts the digits
      rw [if_pos hpoint]
      have hlength : (digits.drop ((digits.length : Int) + d.exponent).toNat).length =
          (-d.exponent).toNat := by
        rw [List.length_drop]
        omega
      refine ⟨_, readDecimal_point (fun c hc => hdigits c (List.mem_of_mem_take hc))
        (fun c hc => hdigits c (List.mem_of_mem_drop hc)) ?_, ?_⟩
      · intro hnil
        have := congrArg List.length hnil
        rw [List.length_take, List.length_nil] at this
        have := List.length_pos_iff.mpr hne
        omega
      · rw [List.take_append_drop, hvalue, hlength, Int.toNat_of_nonneg (by omega), Int.neg_neg]
    · -- zeros before the digits count as places and add nothing
      rw [if_neg hpoint]
      have hlength : (zeros (-((digits.length : Int) + d.exponent)).toNat ++ digits).length =
          (-d.exponent).toNat := by
        rw [List.length_append, zeros, List.length_replicate]
        omega
      have hzero : ∀ c ∈ ['0'], c.isDigit = true := by
        intro c hc
        rw [List.mem_singleton.mp hc]
        rfl
      refine ⟨_, readDecimal_point hzero ?_ (List.cons_ne_nil _ _), ?_⟩
      · intro c hc
        exact (List.mem_append.mp hc).elim isDigit_of_mem_zeros (hdigits c)
      · rw [hlength, Int.toNat_of_nonneg (by omega), Int.neg_neg, digitsValue_append,
          digitsValue_append, digitsValue_zeros, hvalue, Nat.mul_zero, Nat.zero_add,
          show digitsValue ['0'] = 0 from rfl, Nat.mul_zero, Nat.zero_add]

/-! ## Rounding a decimal -/

theorem value_eq (d : Number) :
    d.value = (d.coefficient * tenTo d.exponent.toNat : Nat) / (tenTo (-d.exponent).toNat : Nat) := by
  rw [Number.value, ten_zpow]
  push_cast
  ring

/-- The digits of a decimal tell how large it is. -/
theorem value_bounds {d : Number} (hpos : 0 < d.coefficient) :
    (10 : ℚ) ^ (digitCount d.coefficient + d.exponent - 1) ≤ d.value ∧
      d.value < 10 ^ (digitCount d.coefficient + d.exponent) := by
  have hten := ten_zpow_pos d.exponent
  have hcount := digitCount_pos d.coefficient
  have hlow : (10 : ℚ) ^ (digitCount d.coefficient - 1) ≤ d.coefficient := by
    exact_mod_cast pow_digitCount_le hpos
  have hhigh : (d.coefficient : ℚ) < 10 ^ digitCount d.coefficient := by
    exact_mod_cast lt_pow_digitCount d.coefficient
  constructor
  · rw [show (digitCount d.coefficient + d.exponent - 1 : ℤ) =
        (digitCount d.coefficient - 1 : Nat) + d.exponent by omega,
      zpow_add₀ (by norm_num), zpow_natCast]
    exact mul_le_mul_of_nonneg_right hlow hten.le
  · rw [zpow_add₀ (by norm_num), zpow_natCast]
    exact mul_lt_mul_of_pos_right hhigh hten

/-- The numbers of the 64-bit format are well inside the range in which decimals are rounded. -/
theorem two_pow_lt_ten_pow : (2 : ℚ) ^ 1075 < 10 ^ 400 := by
  rw [← cast_twoTo, ← cast_tenTo, Nat.cast_lt]
  decide +kernel

/-- Inside this range a decimal is rounded as a quotient. -/
theorem ofDecimal_eq_nearest {d : Number} (hbelow : (10 : ℚ) ^ (-400 : ℤ) < d.value)
    (habove : d.value < (10 : ℚ) ^ (400 : ℤ)) :
    0 < d.coefficient ∧ binary64.ofDecimal d =
      binary64.nearest (d.coefficient * tenTo d.exponent.toNat) (tenTo (-d.exponent).toNat) := by
  have hcoefficient : 0 < d.coefficient := by
    refine Nat.pos_of_ne_zero fun hzero => ?_
    have := (ten_zpow_pos _).trans hbelow
    rw [Number.value, hzero, Nat.cast_zero, zero_mul] at this
    exact lt_irrefl _ this
  obtain ⟨hleading, hbeyond⟩ := value_bounds hcoefficient
  have hsmall := (zpow_lt_zpow_iff_right₀ (by norm_num)).mp (hleading.trans_lt habove)
  have hlarge := (zpow_lt_zpow_iff_right₀ (by norm_num)).mp (hbelow.trans hbeyond)
  rw [BinaryFormat.ofDecimal, if_neg (Nat.ne_of_gt hcoefficient), if_neg (by omega),
    if_neg (by omega)]
  exact ⟨hcoefficient, rfl⟩

/-- Rounding a decimal gives the number whose neighbourhood it is in. -/
theorem ofDecimal_of_contains {mantissa : Nat} {exponent : Int} {d : Number}
    (hcanonical : binary64.Canonical mantissa exponent) (hpos : 0 < mantissa)
    (hfinite : binary64.pattern mantissa exponent < binary64.infinityBits)
    (h : (binary64.neighbourhood mantissa exponent).Contains d.value) :
    binary64.ofDecimal d = binary64.pattern mantissa exponent := by
  obtain ⟨hlow, hhigh, -⟩ := BinaryFormat.nearest_mantissa hpos h
  have hunit := two_zpow_pos exponent
  rw [le_div_iff₀ hunit] at hlow
  rw [div_le_iff₀ hunit] at hhigh
  have hone : (1 : ℚ) ≤ mantissa := by exact_mod_cast hpos
  have hbelow : (10 : ℚ) ^ (-400 : ℤ) < d.value := calc
    (10 : ℚ) ^ (-400 : ℤ) < 2 ^ (-1075 : ℤ) := by
      rw [zpow_neg, zpow_neg]
      exact inv_strictAnti₀ (by positivity) two_pow_lt_ten_pow
    _ ≤ 2 ^ (exponent - 1) := zpow_le_zpow_right₀ one_le_two (by
      have : -1074 ≤ exponent := hcanonical.least
      omega)
    _ = 1 / 2 * 2 ^ exponent := by rw [zpow_sub_one₀ two_ne_zero]; ring
    _ ≤ d.value := by nlinarith
  have habove : d.value < (10 : ℚ) ^ (400 : ℤ) := calc
    d.value ≤ 2 * (mantissa * 2 ^ exponent) := by nlinarith
    _ < 2 * 2 ^ (1024 : ℤ) := mul_lt_mul_of_pos_left ((finite64_iff hcanonical).mp hfinite) two_pos
    _ ≤ 2 ^ (1075 : ℤ) := by
      rw [← zpow_one_add₀ two_ne_zero]
      exact zpow_le_zpow_right₀ one_le_two (by decide)
    _ < 10 ^ (400 : ℤ) := two_pow_lt_ten_pow
  have hden : 0 < tenTo (-d.exponent).toNat := Nat.pow_pos (by decide)
  obtain ⟨hcoefficient, hnearest⟩ := ofDecimal_eq_nearest hbelow habove
  have hnum : 0 < d.coefficient * tenTo d.exponent.toNat :=
    Nat.mul_pos hcoefficient (Nat.pow_pos (by decide))
  rw [value_eq] at h
  rw [hnearest, BinaryFormat.nearest_of_contains (by decide) hcanonical hpos hnum hden h,
    Nat.min_eq_left hfinite.le]

theorem ofDecimal_of_value_eq_zero {d : Number} (h : d.value = 0) : binary64.ofDecimal d = 0 := by
  have hcoefficient : d.coefficient = 0 := by
    have := (mul_eq_zero.mp h).resolve_right (ten_zpow_pos _).ne'
    exact_mod_cast this
  rw [BinaryFormat.ofDecimal, if_pos hcoefficient]

/-! ## The text of a number -/

/-- A decimal begins with a digit. -/
theorem plainText_cons (d : Number) :
    ∃ c rest, c.isDigit = true ∧ plainText false d = c :: rest := by
  obtain ⟨c, rest, hdigits⟩ := List.exists_cons_of_ne_nil (Nat.toDigits_ne_nil (n := d.coefficient) (b := 10))
  have hc : c.isDigit = true := isDigit_of_mem_toDigits (hdigits ▸ List.mem_cons_self)
  rw [plainText, hdigits]
  by_cases hwhole : 0 ≤ d.exponent
  · rw [if_pos hwhole]
    exact ⟨c, _, hc, rfl⟩
  · rw [if_neg hwhole]
    by_cases hpoint : 0 < ((c :: rest).length : Int) + d.exponent
    · obtain ⟨k, hk⟩ : ∃ k, (((c :: rest).length : Int) + d.exponent).toNat = k + 1 :=
        ⟨(((c :: rest).length : Int) + d.exponent).toNat - 1, by omega⟩
      rw [if_pos hpoint, hk]
      exact ⟨c, _, hc, rfl⟩
    · rw [if_neg hpoint]
      exact ⟨'0', _, rfl, rfl⟩

theorem toLower_of_isDigit {c : Char} (hc : c.isDigit = true) : c.toLower = c := by
  rw [Char.isDigit, Bool.and_eq_true, decide_eq_true_iff, decide_eq_true_iff] at hc
  rw [Char.toLower, dif_neg]
  intro h
  exact absurd (UInt32.le_trans h.1 hc.2) (by decide)

theorem splitSign_of_isDigit {c : Char} (hc : c.isDigit = true) (rest : List Char) :
    splitSign (c :: rest) = (false, c :: rest) := by
  unfold splitSign
  split
  · rename_i h
    cases h
    cases hc
  · rename_i h
    cases h
    cases hc
  · rfl

/-- A text that begins with a digit is none of the words. -/
theorem lower_ne_word {c : Char} (hc : c.isDigit = true) (rest : List Char) {word : String}
    {first : Char} {more : List Char} (hword : word.toList = first :: more)
    (hfirst : first.isDigit = false) : String.ofList ((c :: rest).map Char.toLower) ≠ word := by
  intro h
  rw [← h, String.toList_ofList, List.map_cons, toLower_of_isDigit hc, List.cons.injEq] at hword
  rw [hword.1, hfirst] at hc
  cases hc

/-- A decimal with its sign is read as the number nearest to it. -/
theorem readFloat_signed {c : Char} (hc : c.isDigit = true) (rest : List Char) {d : Number}
    (hd : readDecimal (c :: rest) = some d) (negative : Bool) :
    readFloat (signed negative (c :: rest)) =
      .ok (ofMagnitude64 negative (binary64.ofDecimal d)) := by
  have hsign : splitSign (signed negative (c :: rest)) = (negative, c :: rest) := by
    cases negative with
    | false => exact splitSign_of_isDigit hc rest
    | true => rfl
  have hempty : (signed negative (c :: rest)).isEmpty = false := by
    cases negative <;> rfl
  rw [readFloat, hempty, hsign]
  dsimp only
  rw [if_neg Bool.false_ne_true, if_neg, if_neg (lower_ne_word hc rest rfl rfl), hd]
  rintro (h | h)
  · exact lower_ne_word hc rest rfl rfl h
  · exact lower_ne_word hc rest rfl rfl h

/-- A number is read back from its text. -/
theorem readFloat_display64 (x : Float) : readFloat (display64 x) = .ok x := by
  rw [display64]
  cases hdecode : decode64 x with
  | nan =>
    rw [eq_ofMagnitude64_of_nan hdecode]
    rfl
  | infinite negative =>
    rw [eq_ofMagnitude64_of_infinite hdecode]
    cases negative <;> rfl
  | finite negative mantissa exponent =>
    obtain ⟨hcanonical, hfinite, hx⟩ := eq_ofMagnitude64_of_finite hdecode
    obtain ⟨d, hread, hvalue⟩ := readDecimal_plainText (binary64.shortest .up mantissa exponent)
    obtain ⟨c, rest, hc, htext⟩ := plainText_cons (binary64.shortest .up mantissa exponent)
    show readFloat (signed negative (plainText false (binary64.shortest .up mantissa exponent))) = _
    rw [htext] at hread ⊢
    rw [readFloat_signed hc rest hread, hx]
    congr 2
    obtain rfl | hpos := Nat.eq_zero_or_pos mantissa
    · obtain rfl : exponent = -1074 := hcanonical.leading.resolve_left (by decide)
      refine ofDecimal_of_value_eq_zero ?_
      rw [hvalue, BinaryFormat.shortest, if_pos rfl, Number.value, Nat.cast_zero, zero_mul]
    · refine ofDecimal_of_contains hcanonical hpos hfinite ?_
      rw [hvalue]
      exact BinaryFormat.contains_shortest (by decide) hcanonical hpos .up

end AdaptiveConsensus.Decimal
