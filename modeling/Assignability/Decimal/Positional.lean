/-
  Assignability.Decimal.Positional
  ────────────────────────────────
  **NUMBERS AS TEXT.**

  A number is written with the shortest digits that read back, always
  positionally: large numbers with their zeros, small ones with the zeros
  behind the point, whole ones without a point.  Zero keeps its sign.
  The words `NaN`, `Infinity` and `-Infinity` stand for the rest.
-/
import Assignability.Decimal.Shortest

namespace Assignability.Decimal

/-- A decimal without the zeros at the end of its digits. -/
def trim (d : Decimal) : Decimal :=
  go (length d.digits) d
where
  go : Nat → Decimal → Decimal
    | 0, d => d
    | n + 1, d => if d.digits % 10 = 0 then go n ⟨d.digits / 10, d.power + 1⟩ else d

/-- `n` zeros. -/
def zeros (n : Nat) : List Char := List.replicate n '0'

/-- A decimal in positional notation. -/
def positional (d : Decimal) : String :=
  let d := d.trim
  let digits := Nat.toDigits 10 d.digits
  let places := (-d.power).toNat
  if d.digits = 0 then "0"
  else if places = 0 then String.ofList (digits ++ zeros d.power.toNat)
  else if places < digits.length then
    let whole := digits.length - places
    String.ofList (digits.take whole ++ '.' :: digits.drop whole)
  else String.ofList ('0' :: '.' :: zeros (places - digits.length) ++ digits)

/-- The text of a number. -/
def text (x : Binary64) : String :=
  if x.isNaN then "NaN"
  else
    let size :=
      if x.isInfinite then "Infinity"
      else (shortest x.significand.1 x.significand.2).positional
    if x.isNegative then "-" ++ size else size

end Assignability.Decimal
