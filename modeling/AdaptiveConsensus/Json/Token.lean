import AdaptiveConsensus.Json.Numeral
import AdaptiveConsensus.Json.Quoted

/-!
# Tokens of a JSON text

A message (comm/wire.rs) is a JSON text, and a JSON text is a row of tokens with blanks between them.
The blanks are the four characters that the format names, and no others.
-/

namespace AdaptiveConsensus.Json

/-- A token. -/
inductive Token where
  | openArray
  | closeArray
  | openObject
  | closeObject
  | comma
  | colon
  | null
  | bool (b : Bool)
  | number (n : Numeral)
  | string (s : Quoted)
  deriving DecidableEq, Repr

/-- The blanks of the format. -/
def isGap (c : Char) : Bool :=
  c == ' ' || c == '\n' || c == '\t' || c == '\r'

namespace Token

/-- Reads a token, and returns what follows it. -/
def scan : List Char → Option (Token × List Char)
  | '[' :: rest => some (openArray, rest)
  | ']' :: rest => some (closeArray, rest)
  | '\x7b' :: rest => some (openObject, rest)
  | '\x7d' :: rest => some (closeObject, rest)
  | ',' :: rest => some (comma, rest)
  | ':' :: rest => some (colon, rest)
  | 'n' :: 'u' :: 'l' :: 'l' :: rest => some (null, rest)
  | 't' :: 'r' :: 'u' :: 'e' :: rest => some (bool true, rest)
  | 'f' :: 'a' :: 'l' :: 's' :: 'e' :: rest => some (bool false, rest)
  | '"' :: rest => (Quoted.scan rest).map fun (s, rest) => (string s, rest)
  | text => (Numeral.scan text).map fun (n, rest) => (number n, rest)

/-- A token takes at least one character. -/
theorem length_scan {text rest : List Char} {t : Token} (h : scan text = some (t, rest)) :
    rest.length < text.length := by
  unfold scan at h
  split at h
  case h_10 r =>
    obtain ⟨⟨s, r'⟩, hs, he⟩ := Option.map_eq_some_iff.1 h
    have := Quoted.length_scan hs
    simp_all; omega
  case h_11 =>
    obtain ⟨⟨n, r'⟩, hn, he⟩ := Option.map_eq_some_iff.1 h
    have := Numeral.length_scan hn
    simp_all
  all_goals
    simp at h
    simp [← h.2]
    try omega

/-- The tokens of a text. -/
def all (text : List Char) : Option (List Token) :=
  match _hgap : text.dropWhile isGap with
  | [] => some []
  | c :: text' =>
    match _hscan : scan (c :: text') with
    | none => none
    | some (t, rest) => (all rest).map (t :: ·)
termination_by text.length
decreasing_by
  have hlength := length_scan _hscan
  have hdrop := (List.dropWhile_sublist isGap (l := text)).length_le
  rw [_hgap] at hdrop
  omega

end Token

end AdaptiveConsensus.Json
