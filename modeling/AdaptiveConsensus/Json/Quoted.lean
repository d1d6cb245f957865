/-!
# Quoted text

A string of a JSON text (comm/wire.rs:29-38) is kept as it is written, piece by piece, because some
places look at the spelling and others at the meaning. Half of a surrogate pair can be written but means
no character, so that the meaning is partial.
-/

namespace AdaptiveConsensus.Json

/-- A piece of a quoted text. -/
inductive Piece where
  /-- A character that stands for itself. -/
  | plain (c : Char)
  /-- A character written as a backslash and a letter or mark. -/
  | escaped (c : Char)
  /-- A 16-bit unit written with four hexadecimal digits. -/
  | unit (u : Nat)
  deriving DecidableEq, Repr

/-- A quoted text without its quotation marks. -/
abbrev Quoted := List Piece

/-- The character that a backslash and a letter or mark stand for. -/
def unescape? : Char → Option Char
  | '"' => some '"'
  | '\\' => some '\\'
  | '/' => some '/'
  | 'b' => some '\x08'
  | 'f' => some '\x0c'
  | 'n' => some '\n'
  | 'r' => some '\r'
  | 't' => some '\t'
  | _ => none

/-- The value of a hexadecimal digit. -/
def hexDigit? (c : Char) : Option Nat :=
  if '0' ≤ c ∧ c ≤ '9' then some (c.toNat - '0'.toNat)
  else if 'a' ≤ c ∧ c ≤ 'f' then some (c.toNat - 'a'.toNat + 10)
  else if 'A' ≤ c ∧ c ≤ 'F' then some (c.toNat - 'A'.toNat + 10)
  else none

/-- The value of a row of hexadecimal digits. -/
def hexValue? (digits : List Char) : Option Nat :=
  digits.foldlM (fun n c => (hexDigit? c).map fun d => 16 * n + d) 0

namespace Quoted

/-- Reads a quoted text up to its closing mark, and returns what follows it. Control characters
have to be escaped. -/
def scan : List Char → Option (Quoted × List Char)
  | [] => none
  | '"' :: rest => some ([], rest)
  | '\\' :: 'u' :: a :: b :: c :: d :: rest =>
    match hexValue? [a, b, c, d] with
    | none => none
    | some u => (scan rest).map fun (text, rest) => (.unit u :: text, rest)
  | '\\' :: c :: rest =>
    match unescape? c with
    | none => none
    | some c => (scan rest).map fun (text, rest) => (.escaped c :: text, rest)
  | c :: rest =>
    if c.toNat < 0x20 then none
    else (scan rest).map fun (text, rest) => (.plain c :: text, rest)

theorem length_scan {text rest : List Char} {quoted : Quoted}
    (h : scan text = some (quoted, rest)) : rest.length < text.length := by
  fun_induction scan text generalizing quoted rest with
  | case1 => simp at h
  | case2 r => simp_all
  | case3 => simp at h
  | case4 a b c d r u _ ih =>
    obtain ⟨⟨q, r'⟩, hq, he⟩ := Option.map_eq_some_iff.1 h
    have := ih hq
    simp_all; omega
  | case5 => simp at h
  | case6 c r _ _ _ ih =>
    obtain ⟨⟨q, r'⟩, hq, he⟩ := Option.map_eq_some_iff.1 h
    have := ih hq
    simp_all; omega
  | case7 => simp at h
  | case8 c r _ _ _ _ ih =>
    obtain ⟨⟨q, r'⟩, hq, he⟩ := Option.map_eq_some_iff.1 h
    have := ih hq
    simp_all; omega

/-- The text as it stands, if it is written without escapes. -/
def asWritten? (quoted : Quoted) : Option (List Char) :=
  quoted.mapM fun
    | .plain c => some c
    | _ => none

/-- The character of a surrogate pair. -/
def pairChar (high low : Nat) : Char :=
  Char.ofNat (0x10000 + (high - 0xD800) * 0x400 + (low - 0xDC00))

/-- The text that is meant. A half of a surrogate pair without its other half means nothing. -/
def decode? : Quoted → Option (List Char)
  | [] => some []
  | .plain c :: rest => (decode? rest).map (c :: ·)
  | .escaped c :: rest => (decode? rest).map (c :: ·)
  | .unit high :: .unit low :: rest =>
    if 0xD800 ≤ high ∧ high < 0xDC00 then
      if 0xDC00 ≤ low ∧ low < 0xE000 then (decode? rest).map (pairChar high low :: ·) else none
    else if 0xDC00 ≤ high ∧ high < 0xE000 then none
    else (decode? (.unit low :: rest)).map (Char.ofNat high :: ·)
  | .unit u :: rest =>
    if 0xD800 ≤ u ∧ u < 0xE000 then none
    else (decode? rest).map (Char.ofNat u :: ·)

end Quoted

/-! ## Writing -/

/-- A control character as four hexadecimal digits. -/
def controlEscape (c : Char) : List Char :=
  let digits := Nat.toDigits 16 c.toNat
  '\\' :: 'u' :: (List.replicate (4 - digits.length) '0' ++ digits)

/-- A character as it is written between quotation marks. -/
def escape (c : Char) : List Char :=
  match c with
  | '"' => ['\\', '"']
  | '\\' => ['\\', '\\']
  | '\x08' => ['\\', 'b']
  | '\x0c' => ['\\', 'f']
  | '\n' => ['\\', 'n']
  | '\r' => ['\\', 'r']
  | '\t' => ['\\', 't']
  | c => if c.toNat < 0x20 then controlEscape c else [c]

/-- A text between quotation marks. -/
def quote (text : List Char) : List Char :=
  '"' :: (text.flatMap escape ++ ['"'])

end AdaptiveConsensus.Json
