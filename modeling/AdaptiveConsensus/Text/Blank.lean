/-!
# Blank characters and trimming

Names and numbers in snapshot files, report messages and options are read with the blanks around them
dropped (rl/snapshot.rs:38, 58, models/protocol.rs:73-74, utils/agent_config.rs:84, 115). A blank is a
character with the Unicode property `White_Space`: the no-break space is one, the zero-width space and
the byte-order mark are not.
-/

namespace AdaptiveConsensus.Text

/-- The characters with the Unicode property `White_Space`. -/
def isBlank (c : Char) : Bool :=
  let n := c.toNat
  (0x9 ≤ n && n ≤ 0xD) || n == 0x20 || n == 0x85 || n == 0xA0 || n == 0x1680 ||
    (0x2000 ≤ n && n ≤ 0x200A) || n == 0x2028 || n == 0x2029 || n == 0x202F || n == 0x205F ||
    n == 0x3000

/-- The text without the blanks it begins with. -/
def trimStart (text : List Char) : List Char :=
  text.dropWhile isBlank

/-- The text without the blanks it ends with. -/
def trimEnd (text : List Char) : List Char :=
  (text.reverse.dropWhile isBlank).reverse

/-- The text without the blanks at either end; blanks inside it stay. -/
def trim (text : List Char) : List Char :=
  trimEnd (trimStart text)

/-- Whether the text is empty or holds blanks only. -/
def isBlankLine (text : List Char) : Bool :=
  text.all isBlank

theorem dropWhile_isBlank_eq_nil (text : List Char) :
    text.dropWhile isBlank = [] ↔ ∀ c ∈ text, isBlank c = true := by
  induction text with
  | nil => simp
  | cons c rest ih => by_cases h : isBlank c = true <;> simp [h, ih]

end AdaptiveConsensus.Text
