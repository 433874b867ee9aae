/-
  Assignability.Text.Whitespace
  ─────────────────────────────
  **BLANKS.**

  A blank is a character with the property White_Space: the ASCII controls
  from tab to carriage return, the space, and the blanks of the other
  blocks.  It is more than the blanks of `Char.isWhitespace`
  (`isBlank_of_isWhitespace`).  `trim` takes the blanks off both ends.
-/

namespace Assignability.Text

/-- The characters with the property White_Space. -/
def blanks : List Nat :=
  [0x9, 0xa, 0xb, 0xc, 0xd, 0x20, 0x85, 0xa0, 0x1680, 0x2000, 0x2001, 0x2002, 0x2003, 0x2004,
    0x2005, 0x2006, 0x2007, 0x2008, 0x2009, 0x200a, 0x2028, 0x2029, 0x202f, 0x205f, 0x3000]

/-- Whether a character has the property White_Space. -/
def isBlank (c : Char) : Bool := blanks.contains c.toNat

/-- The blanks of ASCII are among all blanks. -/
theorem isBlank_of_isWhitespace {c : Char} (h : c.isWhitespace = true) : isBlank c = true := by
  simp only [Char.isWhitespace, Bool.or_eq_true, decide_eq_true_eq] at h
  rcases h with ((h | h) | h) | h <;> subst h <;> decide

/-- A list without the blanks at its two ends. -/
def trimChars (cs : List Char) : List Char :=
  ((cs.dropWhile isBlank).reverse.dropWhile isBlank).reverse

/-- A text without the blanks at its two ends. -/
def trim (s : String) : String := String.ofList (trimChars s.toList)

end Assignability.Text
