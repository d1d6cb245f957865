import AdaptiveConsensus.Decimal.Read
import AdaptiveConsensus.Decimal.Width
import AdaptiveConsensus.Power

/-!
# Numbers of a JSON text

A number of a message (comm/wire.rs:29-38) is kept as it is written. Its value is taken in one of two
ways. A whole number that fits a 64-bit word is exact. Any other number is a 64-bit word of leading
digits, scaled by a power of ten in one rounded multiplication or division; digits for which the word
has no room count for the scale alone.
-/

namespace AdaptiveConsensus.Json

open Decimal

/-- A number as it is written. A number without fraction or exponent has none of their digits. -/
structure Numeral where
  negative : Bool
  whole : List Char
  fraction : List Char
  /-- The sign of the exponent and its digits. -/
  exponent : Option (Bool × List Char)
  deriving DecidableEq, Repr

namespace Numeral

/-! ## Reading -/

/-- The digits a text begins with, and what follows them. -/
def scanDigits (text : List Char) : List Char × List Char :=
  (text.takeWhile Char.isDigit, text.dropWhile Char.isDigit)

theorem length_scanDigits (text : List Char) : (scanDigits text).2.length ≤ text.length :=
  (List.dropWhile_sublist _).length_le

/-- A fraction, if a point follows; a point needs a digit after it. -/
def scanFraction : List Char → Option (List Char × List Char)
  | '.' :: rest =>
    let (digits, rest) := scanDigits rest
    if digits.isEmpty then none else some (digits, rest)
  | text => some ([], text)

/-- The digits of an exponent; there is at least one. -/
def scanExponentDigits (negative : Bool) (text : List Char) :
    Option (Option (Bool × List Char) × List Char) :=
  let (digits, rest) := scanDigits text
  if digits.isEmpty then none else some (some (negative, digits), rest)

/-- The sign and the digits of an exponent. -/
def scanExponentBody : List Char → Option (Option (Bool × List Char) × List Char)
  | '-' :: rest => scanExponentDigits true rest
  | '+' :: rest => scanExponentDigits false rest
  | text => scanExponentDigits false text

/-- An exponent, if its letter follows. -/
def scanExponent : List Char → Option (Option (Bool × List Char) × List Char)
  | 'e' :: rest => scanExponentBody rest
  | 'E' :: rest => scanExponentBody rest
  | text => some (none, text)

/-- Whether a row of digits may stand before the point: it is not empty, and a zero stands alone. -/
def isWhole : List Char → Bool
  | [] => false
  | ['0'] => true
  | c :: _ => c != '0'

/-- An unsigned number. -/
def scanMagnitude (negative : Bool) (text : List Char) : Option (Numeral × List Char) := do
  let (whole, rest) := scanDigits text
  if isWhole whole then
    let (fraction, rest) ← scanFraction rest
    let (exponent, rest) ← scanExponent rest
    return (⟨negative, whole, fraction, exponent⟩, rest)
  else none

/-- Reads a number, and returns what follows it. -/
def scan : List Char → Option (Numeral × List Char)
  | '-' :: rest => scanMagnitude true rest
  | text => scanMagnitude false text

theorem length_scanFraction {text digits rest : List Char}
    (h : scanFraction text = some (digits, rest)) : rest.length ≤ text.length := by
  unfold scanFraction at h
  split at h
  · next r =>
    have := length_scanDigits r
    split at h
    simp at h
    simp_all
    omega
  · simp at h; simp [h.2]

theorem length_scanExponentDigits {negative : Bool} {text rest : List Char}
    {e : Option (Bool × List Char)} (h : scanExponentDigits negative text = some (e, rest)) :
    rest.length ≤ text.length := by
  have := length_scanDigits text
  unfold scanExponentDigits at h
  split at h
  simp at h
  simp_all

theorem length_scanExponentBody {text rest : List Char} {e : Option (Bool × List Char)}
    (h : scanExponentBody text = some (e, rest)) : rest.length ≤ text.length := by
  unfold scanExponentBody at h
  split at h
  · have := length_scanExponentDigits h; simp; omega
  · have := length_scanExponentDigits h; simp; omega
  · exact length_scanExponentDigits h

theorem length_scanExponent {text rest : List Char} {e : Option (Bool × List Char)}
    (h : scanExponent text = some (e, rest)) : rest.length ≤ text.length := by
  unfold scanExponent at h
  split at h
  · have := length_scanExponentBody h; simp; omega
  · have := length_scanExponentBody h; simp; omega
  · simp at h; simp [h.2]

/-- A number takes at least the one digit before its point. -/
theorem length_scanMagnitude {negative : Bool} {text rest : List Char} {n : Numeral}
    (h : scanMagnitude negative text = some (n, rest)) : rest.length < text.length := by
  unfold scanMagnitude at h
  have happend : (scanDigits text).1 ++ (scanDigits text).2 = text := List.takeWhile_append_dropWhile
  rcases hs : scanDigits text with ⟨whole, r⟩
  rw [hs] at h happend
  simp only at h happend
  cases hw : isWhole whole with
  | false => simp [hw] at h
  | true =>
    have hpos : 0 < whole.length := by cases whole <;> simp_all [isWhole]
    have hlen := congrArg List.length happend
    simp only [List.length_append] at hlen
    simp only [hw, if_true, Option.bind_eq_bind, Option.bind_eq_some_iff] at h
    obtain ⟨⟨fraction, r₁⟩, h₁, ⟨e, r₂⟩, h₂, h₃⟩ := h
    have hle₁ := length_scanFraction h₁
    have hle₂ := length_scanExponent h₂
    simp only at hle₁ hle₂
    have hrest : r₂ = rest := by simpa using (congrArg (Option.map Prod.snd) h₃)
    subst hrest
    omega

theorem length_scan {text rest : List Char} {n : Numeral} (h : scan text = some (n, rest)) :
    rest.length < text.length := by
  unfold scan at h
  split at h
  · have := length_scanMagnitude h; simp; omega
  · exact length_scanMagnitude h

/-- The numeral that a whole text is. -/
def ofText? (text : List Char) : Option Numeral :=
  match scan text with
  | some (n, []) => some n
  | _ => none

/-! ## Value -/

/-- A 64-bit word of leading digits and the power of ten it is scaled by. -/
structure Scaled where
  significand : Nat
  exponent : Int
  deriving DecidableEq, Repr

/-- The word with one digit more, if it has room. -/
def extend? (significand : Nat) (digit : Char) : Option Nat :=
  let next := 10 * significand + (digit.toNat - '0'.toNat)
  if next < twoTo 64 then some next else none

/-- The digits before the point; those without room are counted. -/
def scaleWhole (significand : Nat) : List Char → Scaled
  | [] => ⟨significand, 0⟩
  | digit :: rest =>
    match extend? significand digit with
    | some next => scaleWhole next rest
    | none => ⟨significand, (digit :: rest).length⟩

/-- The digits after the point; those without room are dropped. -/
def scaleFraction (s : Scaled) : List Char → Scaled
  | [] => s
  | digit :: rest =>
    match extend? s.significand digit with
    | some next => scaleFraction ⟨next, s.exponent - 1⟩ rest
    | none => s

/-- The leading digits of a numeral, without its exponent. -/
def scaled (n : Numeral) : Scaled :=
  scaleFraction (scaleWhole 0 n.whole) n.fraction

/-- The whole number that a numeral is, if it has neither fraction nor exponent and fits a 64-bit
word. Minus zero is no whole number. -/
def toWhole? (n : Numeral) : Option Int :=
  if n.fraction.isEmpty ∧ n.exponent.isNone then
    let magnitude := digitsValue n.whole
    if n.negative then
      if 0 < magnitude ∧ magnitude ≤ twoTo 63 then some (-(magnitude : Int)) else none
    else if magnitude < twoTo 64 then some magnitude else none
  else none

/-- The largest power of ten that is used in one step. -/
def largestPower : Nat := 308

/-- The 64-bit number nearest to a power of ten. -/
def powerOfTen (k : Nat) : Float :=
  ofMagnitude64 false (binary64.ofDecimal ⟨1, k⟩)

/-- A number scaled by a power of ten; beyond the largest number there is none. -/
def scaleBy (x : Float) (exponent : Int) : Option Float :=
  if exponent.natAbs ≤ largestPower then
    if 0 ≤ exponent then
      let y := x * powerOfTen exponent.toNat
      if y.isInf then none else some y
    else some (x / powerOfTen exponent.natAbs)
  else if x == 0.0 then some x
  else if 0 ≤ exponent then none
  else scaleBy (x / powerOfTen largestPower) (exponent + largestPower)
termination_by exponent.natAbs
decreasing_by simp only [largestPower] at *; omega

/-- The largest exponent that is read as a number. -/
def largestExponent : Nat := twoTo 31 - 1

/-- The magnitude of a numeral as a 64-bit number. -/
def magnitude? (n : Numeral) : Option Float :=
  let s := n.scaled
  let x := (UInt64.ofNat s.significand).toFloat
  match n.exponent with
  | none => scaleBy x s.exponent
  | some (negative, digits) =>
    let e := digitsValue digits
    if largestExponent < e then
      if s.significand ≠ 0 ∧ ¬ negative then none else some 0.0
    else scaleBy x (if negative then s.exponent - e else s.exponent + e)

/-- A numeral as a 64-bit number; there is none for a numeral beyond the largest number. -/
def toFloat? (n : Numeral) : Option Float :=
  n.magnitude?.map fun x => if n.negative then -x else x

/-- The 32-bit number nearest to a whole number. -/
def narrowWhole (i : Int) : Float32 :=
  let bits := binary32.nearest i.natAbs 1
  Float32.ofBits (UInt32.ofNat (if i < 0 then bits + twoTo 31 else bits))

/-- A numeral as a 32-bit number. A whole number is rounded once; any other is a 64-bit number
first. -/
def toFloat32? (n : Numeral) : Option Float32 :=
  match n.toWhole? with
  | some i => some (narrowWhole i)
  | none => n.toFloat?.map narrow

end Numeral

end AdaptiveConsensus.Json
