import AdaptiveConsensus.Proofs.Decimal.Reading
import AdaptiveConsensus.TrainingLog.Basic

/-!
# The order of time stamps

A time stamp is written year first, with as many digits for each of its numbers as the format has
places. So the texts of time stamps are in the order of the moments that they stand for.

- `lt_of_digitsValue_lt`: texts of digits of one length are ordered as their values.
- `Timestamp.text_lt`: the text of an earlier moment comes first.
-/

namespace AdaptiveConsensus

/-- Lists of one length keep their order whatever follows. -/
theorem append_lt_append {α : Type} [LT α] {a b : List α} (h : a < b) (hlength : a.length = b.length)
    (c d : List α) : a ++ c < b ++ d := by
  induction a generalizing b with
  | nil =>
    rw [List.length_nil, eq_comm, List.length_eq_zero_iff] at hlength
    subst b
    exact absurd h (List.not_lt_nil [])
  | cons x a ih =>
    cases b with
    | nil => cases hlength
    | cons y b =>
      rw [List.cons_lt_cons_iff] at h
      rw [List.cons_append, List.cons_append, List.cons_lt_cons_iff]
      refine h.imp_right fun hsame => ?_
      obtain ⟨hhead, htail⟩ := hsame
      exact ⟨hhead, ih htail (Nat.succ.inj hlength)⟩

namespace Decimal

/-! ## Digits -/

theorem digitsValue_cons (c : Char) (digits : List Char) :
    digitsValue (c :: digits) =
      10 ^ digits.length * (c.toNat - '0'.toNat) + digitsValue digits := by
  have hsingle : digitsValue [c] = c.toNat - '0'.toNat := by
    simp [digitsValue]
  rw [← List.singleton_append, digitsValue_append, hsingle]

theorem digitsValue_lt {digits : List Char} (h : ∀ c ∈ digits, c.isDigit = true) :
    digitsValue digits < 10 ^ digits.length := by
  induction digits with
  | nil => decide
  | cons c digits ih =>
    obtain ⟨hc, hdigits⟩ := List.forall_mem_cons.mp h
    have hvalue : c.toNat - '0'.toNat ≤ 9 := by
      have hbounds := Char.isDigit_iff_toNat.mp hc
      have hzero : '0'.toNat = 48 := rfl
      have hnine : '9'.toNat = 57 := rfl
      omega
    have hrest := ih hdigits
    have hscaled := Nat.mul_le_mul_left (10 ^ digits.length) hvalue
    rw [digitsValue_cons, List.length_cons, Nat.pow_succ]
    omega

/-- Texts of digits of one length are ordered as their values. -/
theorem lt_of_digitsValue_lt {a b : List Char} (ha : ∀ c ∈ a, c.isDigit = true)
    (hb : ∀ c ∈ b, c.isDigit = true) (hlength : a.length = b.length)
    (h : digitsValue a < digitsValue b) : a < b := by
  induction a generalizing b with
  | nil =>
    rw [List.length_nil, eq_comm, List.length_eq_zero_iff] at hlength
    subst b
    exact absurd h (Nat.lt_irrefl _)
  | cons c a ih =>
    cases b with
    | nil => cases hlength
    | cons d b =>
      obtain ⟨hc, ha⟩ := List.forall_mem_cons.mp ha
      obtain ⟨hd, hb⟩ := List.forall_mem_cons.mp hb
      have hrest : a.length = b.length := Nat.succ.inj hlength
      rw [digitsValue_cons, digitsValue_cons, hrest] at h
      rw [List.cons_lt_cons_iff]
      have hbounds := Char.isDigit_iff_toNat.mp hc
      have hbounds' := Char.isDigit_iff_toNat.mp hd
      rcases Nat.lt_trichotomy c.toNat d.toNat with hlt | heq | hgt
      · exact .inl (Char.lt_def.mpr hlt)
      · refine .inr ⟨Char.toNat_inj.mp heq, ih ha hb hrest ?_⟩
        rw [heq] at h
        exact Nat.lt_of_add_lt_add_left h
      · -- the value of what follows a larger digit cannot make up for it
        have hvalue := digitsValue_lt hb
        have hdigit : (d.toNat - '0'.toNat) + 1 ≤ c.toNat - '0'.toNat := by omega
        have hscaled := Nat.mul_le_mul_left (10 ^ b.length) hdigit
        rw [Nat.mul_add, Nat.mul_one] at hscaled
        omega

end Decimal

open Decimal

namespace Timestamp

/-! ## Moments -/

variable {width n m : Nat}

theorem isDigit_of_mem_padded {c : Char} (hc : c ∈ padded width n) : c.isDigit = true := by
  rcases List.mem_append.mp hc with hc | hc
  · exact isDigit_of_mem_zeros hc
  · exact isDigit_of_mem_toDigits hc

theorem digitsValue_padded (width n : Nat) : digitsValue (padded width n) = n := by
  rw [padded, digitsValue_append, digitsValue_zeros, Nat.mul_zero, Nat.zero_add]
  exact digitsValue_toDigits n

/-- A number that is not too large takes as many characters as it is to take. -/
theorem length_padded (hn : n < 10 ^ width) (hwidth : 0 < width) : (padded width n).length = width := by
  have hdigits : (natText n).length ≤ width := (Nat.length_toDigits_le_iff (by decide) hwidth).mpr hn
  rw [padded, List.length_append, zeros, List.length_replicate]
  omega

theorem padded_lt (hn : n < 10 ^ width) (hm : m < 10 ^ width) (hwidth : 0 < width) (h : n < m) :
    padded width n < padded width m := by
  apply lt_of_digitsValue_lt
  · exact fun c => isDigit_of_mem_padded
  · exact fun c => isDigit_of_mem_padded
  · rw [length_padded hn hwidth, length_padded hm hwidth]
  · rwa [digitsValue_padded, digitsValue_padded]

/-- The numbers of a moment, in the order in which they are written. -/
def fields (t : Timestamp) : List Nat :=
  [t.year, t.month, t.day, t.hour, t.minute, t.second]

/-- A moment is earlier if the first of its numbers that differs is smaller. -/
instance : LT Timestamp := ⟨fun s t => s.fields < t.fields⟩

instance (s t : Timestamp) : Decidable (s < t) := inferInstanceAs (Decidable (s.fields < t.fields))

theorem fields_inj {s t : Timestamp} (h : s.fields = t.fields) : s = t := by
  cases s; cases t; simp_all [fields]

/-- Of two moments one is earlier. -/
theorem lt_or_lt {s t : Timestamp} (h : s ≠ t) : s < t ∨ t < s := by
  by_cases hlt : s < t
  · exact .inl hlt
  · by_cases hgt : t < s
    · exact .inr hgt
    · exact absurd (fields_inj (List.le_antisymm (α := Nat) hgt hlt)) h

/-- A moment that can be written in the format: its year has four digits and its other numbers have
two. -/
structure Written (t : Timestamp) : Prop where
  year : t.year < 10 ^ 4
  month : t.month < 10 ^ 2
  day : t.day < 10 ^ 2
  hour : t.hour < 10 ^ 2
  minute : t.minute < 10 ^ 2
  second : t.second < 10 ^ 2

instance (t : Timestamp) : Decidable t.Written :=
  decidable_of_iff (t.year < 10 ^ 4 ∧ t.month < 10 ^ 2 ∧ t.day < 10 ^ 2 ∧ t.hour < 10 ^ 2 ∧
      t.minute < 10 ^ 2 ∧ t.second < 10 ^ 2)
    ⟨fun ⟨year, month, day, hour, minute, second⟩ => ⟨year, month, day, hour, minute, second⟩,
      fun ⟨year, month, day, hour, minute, second⟩ => ⟨year, month, day, hour, minute, second⟩⟩

/-- Texts that begin with numbers are ordered by these numbers and then by what follows. -/
theorem padded_cons_lt {ns ms : List Nat} {rest rest' : List Char} {separator : Char}
    (hn : n < 10 ^ width) (hm : m < 10 ^ width) (hwidth : 0 < width) (h : n :: ns < m :: ms)
    (hrest : ns < ms → rest < rest') :
    padded width n ++ separator :: rest < padded width m ++ separator :: rest' := by
  rcases List.cons_lt_cons_iff.mp h with hlt | ⟨rfl, hlater⟩
  · apply append_lt_append (padded_lt hn hm hwidth hlt)
    rw [length_padded hn hwidth, length_padded hm hwidth]
  · apply List.append_left_lt
    exact List.cons_lt_cons_iff.mpr (.inr ⟨rfl, hrest hlater⟩)

/-- The text of an earlier moment comes first. -/
theorem text_lt {s t : Timestamp} (hs : s.Written) (ht : t.Written) (h : s < t) : s.text < t.text := by
  simp only [text, List.append_assoc, List.cons_append]
  apply padded_cons_lt hs.year ht.year (by decide) h
  intro h
  apply padded_cons_lt hs.month ht.month (by decide) h
  intro h
  apply padded_cons_lt hs.day ht.day (by decide) h
  intro h
  apply padded_cons_lt hs.hour ht.hour (by decide) h
  intro h
  apply padded_cons_lt hs.minute ht.minute (by decide) h
  intro h
  apply padded_lt hs.second ht.second (by decide)
  rcases List.cons_lt_cons_iff.mp h with hlt | ⟨-, hnil⟩
  · exact hlt
  · exact absurd hnil (List.not_lt_nil [])

/-- All moments that can be written have texts of one length. -/
theorem length_text {t : Timestamp} (ht : t.Written) : t.text.length = 19 := by
  simp only [text, List.length_append, List.length_cons, length_padded ht.year (by decide),
    length_padded ht.month (by decide), length_padded ht.day (by decide),
    length_padded ht.hour (by decide), length_padded ht.minute (by decide),
    length_padded ht.second (by decide)]

end Timestamp

end AdaptiveConsensus
