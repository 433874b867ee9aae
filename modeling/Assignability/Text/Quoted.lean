/-
  Assignability.Text.Quoted
  ─────────────────────────
  **QUOTED TEXT.**

  A string literal is shown between double quotes.  The quote and the
  backslash are written with a backslash before them, the null character,
  tab, line feed and carriage return by a letter, and what cannot be shown
  by its code point in hexadecimal.
-/
import Assignability.Text.Printable

namespace Assignability.Text

/-- A character by its code point, in lower-case hexadecimal. -/
def byNumber (c : Char) : List Char :=
  '\\' :: 'u' :: '\x7b' :: (Nat.toDigits 16 c.toNat ++ ['\x7d'])

/-- A character as it stands between quotes. -/
def escape (c : Char) : List Char :=
  if c = '\x00' then ['\\', '0']
  else if c = '\t' then ['\\', 't']
  else if c = '\r' then ['\\', 'r']
  else if c = '\n' then ['\\', 'n']
  else if c = '"' then ['\\', '"']
  else if c = '\\' then ['\\', '\\']
  else if isHidden c then byNumber c
  else [c]

/-- A text between quotes. -/
def quote (s : String) : String :=
  String.ofList ('"' :: (s.toList.flatMap escape ++ ['"']))

end Assignability.Text
