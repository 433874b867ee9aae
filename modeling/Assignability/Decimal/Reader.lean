/-
  Assignability.Decimal.Reader
  ────────────────────────────
  **READING NUMBERS.**

  A number is an optional sign followed by digits, which may hold one
  point, and an optional exponent; there is at least one digit, before or
  behind the point.  `inf`, `infinity` and `nan` are read in any mixture
  of cases.  The value is the nearest number, of two equally near the even
  one; past the largest finite number it is infinite.

  `canonical?` accepts the one spelling that `text` writes.
-/
import Assignability.Decimal.Positional

namespace Assignability.Decimal

/-- A digit's value. -/
def digit? (c : Char) : Option Nat :=
  if '0' ≤ c ∧ c ≤ '9' then some (c.toNat - '0'.toNat) else none

/-- The digits at the front of a text, and what follows them. -/
def takeDigits : List Char → List Nat × List Char
  | [] => ([], [])
  | c :: cs =>
    match digit? c with
    | some d => let (ds, rest) := takeDigits cs; (d :: ds, rest)
    | none => ([], c :: cs)

/-- The natural number of a list of digits, the most significant first. -/
def ofDigits (ds : List Nat) : Nat := ds.foldl (fun n d => 10 * n + d) 0

/-- A sign at the front of a text, and what follows it. -/
def takeSign : List Char → Bool × List Char
  | '-' :: cs => (true, cs)
  | '+' :: cs => (false, cs)
  | cs => (false, cs)

/-- What stands behind the digits: nothing, or `e` and a whole number. -/
def exponent? : List Char → Option Int
  | [] => some 0
  | c :: cs =>
    if c = 'e' ∨ c = 'E' then
      let (negative, cs) := takeSign cs
      match takeDigits cs with
      | ([], _) => none
      | (ds, []) => some (if negative then -(ofDigits ds : Int) else ofDigits ds)
      | (_, _ :: _) => none
    else none

/-- An unsigned number: digits with at most one point, then the exponent. -/
def unsigned? (cs : List Char) : Option Decimal :=
  let (whole, rest) := takeDigits cs
  let (places, rest) :=
    match rest with
    | '.' :: rest => takeDigits rest
    | rest => ([], rest)
  if whole.isEmpty && places.isEmpty then none
  else (exponent? rest).map fun e => ⟨ofDigits (whole ++ places), e - places.length⟩

/-- The magnitude nearest to a decimal.  Decimals far outside the range of the finite numbers are
infinite or zero whatever their digits are. -/
def toMagnitude (d : Decimal) : Nat :=
  let top := d.power + length d.digits
  if d.digits = 0 then 0
  else if 400 < top then Binary64.infiniteMagnitude
  else if top < -400 then 0
  else Binary64.magnitudeOfRatio (d.digits * Binary64.factor 10 d.power)
      (Binary64.factor 10 (-d.power))

/-- The magnitude that a word stands for, in any mixture of cases. -/
def word? (cs : List Char) : Option Nat :=
  let word := String.ofList (cs.map Char.toLower)
  if word = "inf" ∨ word = "infinity" then some Binary64.infiniteMagnitude
  else if word = "nan" then some Binary64.nan.magnitude
  else none

/-- The number that a text stands for. -/
def read? (s : String) : Option Binary64 :=
  let (negative, cs) := takeSign s.toList
  let magnitude :=
    match unsigned? cs with
    | some d => some d.toMagnitude
    | none => word? cs
  magnitude.map (Binary64.ofMagnitude negative)

/-- The number that a text is the text of. -/
def canonical? (s : String) : Option Binary64 :=
  (read? s).filter fun x => text x == s

/-- What is read as the canonical text of a number is its text. -/
theorem text_of_canonical? {s : String} {x : Binary64} (h : canonical? s = some x) :
    text x = s := by
  simpa using (Option.filter_eq_some_iff.1 h).2

end Assignability.Decimal
