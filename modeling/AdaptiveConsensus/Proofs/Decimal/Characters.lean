import AdaptiveConsensus.Proofs.Text.Lines
import AdaptiveConsensus.Decimal.Layout

/-!
# The characters of written numbers

Numbers in rows are written with digits, points, minus signs and letters. All of these lie between
the minus sign and the small z in the character table, where there is no blank and no comma, so that
a number is one cell of a row whatever its value.

- `cellText_display64`, `cellText_fixed64`: the two ways in which rows write numbers.
-/

namespace AdaptiveConsensus.Decimal

open Text

/-- A text of characters between the minus sign and the small z. -/
def CellText (text : List Char) : Prop :=
  ∀ c ∈ text, '-'.toNat ≤ c.toNat ∧ c.toNat ≤ 'z'.toNat

instance (text : List Char) : Decidable (CellText text) :=
  List.decidableBAll _ text

namespace CellText

theorem solid {text : List Char} (h : CellText text) : Solid text := by
  intro c hc
  obtain ⟨hlow, hhigh⟩ : 45 ≤ c.toNat ∧ c.toNat ≤ 122 := h c hc
  simp only [isBlank, Bool.or_eq_false_iff, Bool.and_eq_false_iff, decide_eq_false_iff_not,
    beq_eq_false_iff_ne]
  omega

/-- A character below the minus sign, such as a comma or a line end, is in no cell. -/
theorem not_mem_of_lt {text : List Char} (h : CellText text) {c : Char} (hc : c.toNat < '-'.toNat) :
    c ∉ text :=
  fun hmem => Nat.not_le_of_lt hc (h c hmem).1

theorem nil : CellText [] := fun _ hc => (List.not_mem_nil hc).elim

theorem cons {c : Char} {text : List Char} (hc : '-'.toNat ≤ c.toNat ∧ c.toNat ≤ 'z'.toNat)
    (h : CellText text) : CellText (c :: text) := by
  intro d hd
  rcases List.mem_cons.mp hd with rfl | hd
  · exact hc
  · exact h d hd

theorem append {text more : List Char} (h : CellText text) (hmore : CellText more) :
    CellText (text ++ more) :=
  fun c hc => (List.mem_append.mp hc).elim (h c) (hmore c)

theorem take {text : List Char} (h : CellText text) (k : Nat) : CellText (text.take k) :=
  fun c hc => h c (List.mem_of_mem_take hc)

theorem drop {text : List Char} (h : CellText text) (k : Nat) : CellText (text.drop k) :=
  fun c hc => h c (List.mem_of_mem_drop hc)

end CellText

theorem cellText_zeros (count : Nat) : CellText (zeros count) := by
  intro c hc
  rw [zeros, List.mem_replicate] at hc
  rw [hc.2]
  decide

theorem cellText_digits (n : Nat) : CellText (Nat.toDigits 10 n) := by
  intro c hc
  have hdigit := Nat.isDigit_of_mem_toDigits (by decide) (by decide) hc
  rw [Char.isDigit, Bool.and_eq_true, decide_eq_true_iff, decide_eq_true_iff] at hdigit
  obtain ⟨hlow, hhigh⟩ : 48 ≤ c.toNat ∧ c.toNat ≤ 57 := hdigit
  show 45 ≤ c.toNat ∧ c.toNat ≤ 122
  omega

theorem cellText_signed {text : List Char} (h : CellText text) (negative : Bool) :
    CellText (signed negative text) := by
  cases negative with
  | false => exact h
  | true => exact CellText.cons (by decide) h

theorem cellText_plainText (d : Number) : CellText (plainText false d) := by
  have hdigits := cellText_digits d.coefficient
  rw [plainText]
  split
  · exact (hdigits.append (cellText_zeros _)).append CellText.nil
  · split
    · exact (hdigits.take _).append (CellText.cons (by decide) (hdigits.drop _))
    · exact CellText.cons (by decide) (CellText.cons (by decide) ((cellText_zeros _).append hdigits))

theorem cellText_notNumber : CellText rowLayout.notNumber.toList := by
  decide

theorem cellText_notFinite (negative : Bool) : CellText (rowLayout.notFinite negative).toList := by
  cases negative <;> decide

/-- The shortest text of a number is one cell. -/
theorem cellText_display64 (x : Float) : CellText (display64 x) := by
  rw [display64]
  cases decode64 x with
  | nan => exact cellText_notNumber
  | infinite negative => exact cellText_notFinite negative
  | finite negative mantissa exponent => exact cellText_signed (cellText_plainText _) negative

theorem cellText_placesText (places numerator : Nat) : CellText (placesText places numerator) := by
  have hpadded := (cellText_zeros (places + 1 - (Nat.toDigits 10 numerator).length)).append
    (cellText_digits numerator)
  exact (hpadded.take _).append (CellText.cons (by decide) (hpadded.drop _))

/-- The text of a number with a fixed number of places is one cell. -/
theorem cellText_fixed64 (places : Nat) (x : Float) : CellText (fixed64 places x) := by
  rw [fixed64]
  cases decode64 x with
  | nan => exact cellText_notNumber
  | infinite negative => exact cellText_notFinite negative
  | finite negative mantissa exponent => exact cellText_signed (cellText_placesText _ _) negative

end AdaptiveConsensus.Decimal
