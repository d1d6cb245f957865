import AdaptiveConsensus.Proofs.Decimal.Reading

/-!
# Fixed places

The text of a number with a fixed number of places is read as a number that has the same text. The
number that is read need not be the one that was written, but it is no farther from the decimal.

- `readDecimal_placesText`: a decimal with places is read as it stands.
- `fixed64_eq_of_nearest`: the text of a number is that of the decimal nearest to it.
- `readFloat_fixed64`: the text of a number survives reading and writing.
-/

namespace AdaptiveConsensus.Decimal

/-! ## Decimals with places -/

/-- The digits of a decimal with places, leading zeros included. -/
theorem exists_placesText (places k : Nat) :
    ∃ whole fraction : List Char, placesText places k = whole ++ '.' :: fraction ∧ whole ≠ [] ∧
      fraction.length = places ∧ (∀ c ∈ whole ++ fraction, c.isDigit = true) ∧
      digitsValue (whole ++ fraction) = k := by
  have hvalue : digitsValue (zeros (places + 1 - (Nat.toDigits 10 k).length) ++ Nat.toDigits 10 k) = k := by
    rw [digitsValue_append, digitsValue_zeros, digitsValue_toDigits, Nat.mul_zero, Nat.zero_add]
  have hdigits : ∀ c ∈ zeros (places + 1 - (Nat.toDigits 10 k).length) ++ Nat.toDigits 10 k,
      c.isDigit = true :=
    fun c hc => (List.mem_append.mp hc).elim isDigit_of_mem_zeros isDigit_of_mem_toDigits
  have hlength : places < (zeros (places + 1 - (Nat.toDigits 10 k).length) ++
      Nat.toDigits 10 k).length := by
    rw [List.length_append, zeros, List.length_replicate]
    omega
  rw [placesText]
  generalize zeros (places + 1 - (Nat.toDigits 10 k).length) ++ Nat.toDigits 10 k = padded at *
  refine ⟨padded.take (padded.length - places), padded.drop (padded.length - places), rfl, ?_, ?_, ?_, ?_⟩
  · intro hnil
    have := congrArg List.length hnil
    rw [List.length_take, List.length_nil] at this
    omega
  · rw [List.length_drop]
    omega
  · rwa [List.take_append_drop]
  · rwa [List.take_append_drop]

/-- A decimal with places is read as it stands. -/
theorem readDecimal_placesText (places k : Nat) :
    readDecimal (placesText places k) = some ⟨k, -(places : ℤ)⟩ := by
  obtain ⟨whole, fraction, htext, hne, hlength, hdigits, hvalue⟩ := exists_placesText places k
  rw [htext, readDecimal_point (fun c hc => hdigits c (List.mem_append_left _ hc))
    (fun c hc => hdigits c (List.mem_append_right _ hc)) hne, hvalue, hlength]

/-- A decimal with places is read with its sign as the number nearest to it. -/
theorem readFloat_placesText (negative : Bool) (places k : Nat) :
    readFloat (signed negative (placesText places k)) =
      .ok (ofMagnitude64 negative (binary64.ofDecimal ⟨k, -(places : ℤ)⟩)) := by
  have hread := readDecimal_placesText places k
  obtain ⟨whole, fraction, htext, hne, -, hdigits, -⟩ := exists_placesText places k
  obtain ⟨c, rest, rfl⟩ := List.exists_cons_of_ne_nil hne
  rw [htext, List.cons_append] at hread ⊢
  exact readFloat_signed (hdigits c List.mem_cons_self) _ hread negative

/-! ## The text of a number -/

/-- The text of a number is that of the decimal nearest to it. -/
theorem fixed64_eq_of_nearest {x : Float} {negative : Bool} {mantissa : Nat} {exponent : Int}
    (hdecode : decode64 x = .finite negative mantissa exponent) {places k : Nat}
    (h : Nearest (mantissa * 2 ^ exponent * 10 ^ places) k) :
    fixed64 places x = signed negative (placesText places k) := by
  rw [fixed64, hdecode]
  dsimp only
  rw [roundDiv_eq (twoTo_pos _)]
  convert h using 1
  rw [two_zpow]
  push_cast
  rw [cast_tenTo]
  ring

/-- Every number that is not negative has a nearest decimal. -/
theorem exists_nearest_decimal (mantissa : Nat) (exponent : Int) (places : Nat) :
    ∃ k, Nearest (mantissa * 2 ^ exponent * 10 ^ places) k :=
  exists_nearest_whole (by
    have := two_zpow_pos exponent
    positivity)

theorem value_places (k places : Nat) : (Number.mk k (-(places : ℤ))).value = k / 10 ^ places := by
  rw [Number.value, zpow_neg, zpow_natCast, div_eq_mul_inv]

/-- Being near does not depend on the unit. -/
theorem dist_div (a : ℚ) (k places : Nat) :
    |k / 10 ^ places - a| * 10 ^ places = |a * 10 ^ places - k| := by
  have hten : (0 : ℚ) < 10 ^ places := by positivity
  rw [abs_sub_comm, ← abs_of_pos hten, ← abs_mul, abs_of_pos hten, sub_mul, div_mul_cancel₀ _ hten.ne']

/-- A decimal with a fixed number of places is read as the number that its value is rounded to. -/
theorem ofDecimal_of_rounded {m : Nat} {e : Int} {places k : Nat} (hplaces : places < 400)
    (hpos : 0 < k) (hlarge : (k / 10 ^ places : ℚ) ≤ 2 ^ (1024 : ℤ))
    (hround : binary64.Rounded (k / 10 ^ places) m e) :
    binary64.ofDecimal ⟨k, -(places : ℤ)⟩ = min (binary64.pattern m e) binary64.infinityBits := by
  have hbelow : (10 : ℚ) ^ (-400 : ℤ) < (Number.mk k (-(places : ℤ))).value := by
    have hone : (1 : ℚ) ≤ k := by exact_mod_cast hpos
    calc (10 : ℚ) ^ (-400 : ℤ) < 10 ^ (-(places : ℤ)) :=
          zpow_lt_zpow_right₀ (by norm_num) (by omega)
      _ ≤ k * 10 ^ (-(places : ℤ)) := le_mul_of_one_le_left (ten_zpow_pos _).le hone
  have habove : (Number.mk k (-(places : ℤ))).value < (10 : ℚ) ^ (400 : ℤ) := by
    rw [value_places]
    calc (k / 10 ^ places : ℚ) ≤ 2 ^ (1024 : ℤ) := hlarge
      _ ≤ 2 ^ (1075 : ℤ) := zpow_le_zpow_right₀ one_le_two (by decide)
      _ < 10 ^ (400 : ℤ) := two_pow_lt_ten_pow
  obtain ⟨-, hrounded⟩ := ofDecimal_eq_nearest hbelow habove
  have hexponent : (-(places : ℤ)).toNat = 0 := Int.toNat_of_nonpos (by omega)
  dsimp only at hrounded
  rw [hexponent, Int.neg_neg, Int.toNat_natCast, show tenTo 0 = 1 from rfl, Nat.mul_one] at hrounded
  have hden : 0 < tenTo places := Nat.pow_pos (by decide)
  rw [← cast_tenTo] at hround
  rw [hrounded, BinaryFormat.nearest_eq_of_rounded (by decide) hpos hden hround]

/-- The decimal nearest to a number is read as a number that is no farther from it. -/
theorem exists_nearest_place {m : Nat} {e : Int} (hcanonical : binary64.Canonical m e)
    (hfinite : binary64.pattern m e < binary64.infinityBits) {places k : Nat} (hplaces : places < 400)
    (h : Nearest (m * 2 ^ e * 10 ^ places) k) :
    ∃ mantissa exponent, binary64.Canonical mantissa exponent ∧
      binary64.pattern mantissa exponent < binary64.infinityBits ∧
      binary64.ofDecimal ⟨k, -(places : ℤ)⟩ = binary64.pattern mantissa exponent ∧
      Nearest (mantissa * 2 ^ exponent * 10 ^ places) k := by
  have hten : (0 : ℚ) < 10 ^ places := by positivity
  obtain rfl | hpos := Nat.eq_zero_or_pos k
  · refine ⟨0, -1074, ⟨by decide, by decide, .inr rfl⟩, by decide, ?_, ?_⟩
    · exact ofDecimal_of_value_eq_zero (by rw [value_places, Nat.cast_zero, zero_div])
    · rw [Nat.cast_zero, zero_mul, zero_mul]
      exact ⟨by norm_num, by norm_num, by decide⟩
  have hhalf : |(k / 10 ^ places - m * 2 ^ e : ℚ)| ≤ 1 / 2 := by
    have := (nearest_iff.mp h).1
    rw [← dist_div] at this
    exact (le_mul_of_one_le_right (abs_nonneg _) (one_le_pow₀ (by norm_num))).trans this
  have hlargest := le_largest64 hcanonical hfinite
  have hr : (0 : ℚ) < k / 10 ^ places := div_pos (by exact_mod_cast hpos) hten
  obtain ⟨mantissa, exponent, hround⟩ := binary64.exists_rounded hr
  obtain ⟨hcanonical', hdist⟩ := hround.isNearest (by decide) hr
  have hclose := hdist m e hcanonical
  -- the number that is found is close to a finite one, so it is finite
  have hfinite' : binary64.pattern mantissa exponent < binary64.infinityBits := by
    rw [finite64_iff hcanonical']
    linarith [(abs_le.mp (hclose.trans hhalf)).1, (abs_le.mp hhalf).2]
  refine ⟨mantissa, exponent, hcanonical', hfinite', ?_, h.of_dist_le ?_⟩
  · have hlarge : (k / 10 ^ places : ℚ) ≤ 2 ^ (1024 : ℤ) := by linarith [(abs_le.mp hhalf).2]
    rw [ofDecimal_of_rounded hplaces hpos hlarge hround, Nat.min_eq_left hfinite'.le]
  · rw [← dist_div, ← dist_div]
    exact mul_le_mul_of_nonneg_right hclose hten.le

/-- The text of a number with a fixed number of places is read as a number that has the same text. -/
theorem readFloat_fixed64 {places : Nat} (hplaces : places < 400) (x : Float) :
    ∃ y, readFloat (fixed64 places x) = .ok y ∧ fixed64 places y = fixed64 places x := by
  cases hdecode : decode64 x with
  | nan =>
    refine ⟨x, ?_, rfl⟩
    rw [fixed64, hdecode, eq_ofMagnitude64_of_nan hdecode]
    rfl
  | infinite negative =>
    refine ⟨x, ?_, rfl⟩
    rw [fixed64, hdecode, eq_ofMagnitude64_of_infinite hdecode]
    cases negative <;> rfl
  | finite negative m e =>
    obtain ⟨hcanonical, hfinite, -⟩ := eq_ofMagnitude64_of_finite hdecode
    obtain ⟨k, hk⟩ := exists_nearest_decimal m e places
    obtain ⟨mantissa, exponent, hcanonical', hfinite', hread, hk'⟩ :=
      exists_nearest_place hcanonical hfinite hplaces hk
    rw [fixed64_eq_of_nearest hdecode hk, readFloat_placesText, hread]
    exact ⟨_, rfl, fixed64_eq_of_nearest (decode64_of_canonical hcanonical' hfinite' negative) hk'⟩

end AdaptiveConsensus.Decimal
