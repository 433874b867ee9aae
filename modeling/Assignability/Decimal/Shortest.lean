/-
  Assignability.Decimal.Shortest
  ──────────────────────────────
  **THE SHORTEST DECIMAL THAT READS BACK.**

  The reals that round to `m · 2 ^ e` form an interval around it, whose
  ends belong to it when `m` is even.  For one digit, two digits, … up to
  seventeen, the two neighbours of the value on the grid of that many
  digits are tried: the first grid with a neighbour in the interval gives
  the decimal, of two such neighbours the nearer one, and the upper one
  when both are equally near.  Seventeen digits always suffice.

  Everything is compared in exact arithmetic on `Nat`.
-/
import Assignability.Decimal.Binary64

namespace Assignability

/-- A decimal `digits · 10 ^ power`. -/
structure Decimal where
  digits : Nat
  power : Int
  deriving DecidableEq, Repr

namespace Decimal

open Binary64 (factor)

/-- The number of decimal digits of `n`. -/
def length (n : Nat) : Nat := (Nat.toDigits 10 n).length

/-- The power of ten next above `num / den`: the least `p` with `num / den < 10 ^ p`, for a
positive quotient. -/
def magnitude (num den : Nat) : Int :=
  let guess : Int := (length num : Int) - (length den : Int)
  if num * factor 10 (-guess) < den * factor 10 guess then guess else guess + 1

/-- A value and the ends of the interval of reals that round to it, all in units of
`2 ^ exponent`. -/
structure Rounding where
  low : Nat
  value : Nat
  high : Nat
  /-- The ends round to the value too. -/
  closed : Bool
  exponent : Int

/-- The interval of `m · 2 ^ e`, in quarters of a step: half a step up, and half a step down, where
the step below the least significand of an exponent is half as wide. -/
def Rounding.of (m : Nat) (e : Int) : Rounding where
  low := if m = Binary64.exponentUnit ∧ -1074 < e then 4 * m - 1 else 4 * m - 2
  value := 4 * m
  high := 4 * m + 2
  closed := m % 2 == 0
  exponent := e - 2

/-- The better neighbour of the value among the multiples of `10 ^ power`, if one of the two
rounds to the value. -/
def Rounding.onGrid? (r : Rounding) (power : Int) : Option Nat :=
  -- both sides are multiplied until no power is negative
  let unit := factor 10 power * factor 2 (-r.exponent)
  let scale := factor 10 (-power) * factor 2 r.exponent
  let value := r.value * scale
  let inside (c : Nat) : Bool :=
    if r.closed then r.low * scale ≤ c * unit && c * unit ≤ r.high * scale
    else r.low * scale < c * unit && c * unit < r.high * scale
  let below := value / unit
  let above := below + 1
  match inside below, inside above with
  | true, true => if value - below * unit < above * unit - value then some below else some above
  | true, false => some below
  | false, true => some above
  | false, false => none

/-- The first grid of at least `digits` digits with a neighbour that reads back; `more` grids are
left to try after it. -/
def Rounding.search (r : Rounding) (top : Int) : Nat → Nat → Decimal
  | digits, 0 => ⟨(r.onGrid? (top - digits)).getD 0, top - digits⟩
  | digits, more + 1 =>
    match r.onGrid? (top - digits) with
    | some c => ⟨c, top - digits⟩
    | none => r.search top (digits + 1) more

/-- The shortest decimal that rounds to `m · 2 ^ e`. -/
def shortest (m : Nat) (e : Int) : Decimal :=
  if m = 0 then ⟨0, 0⟩
  else (Rounding.of m e).search (magnitude (m * factor 2 e) (factor 2 (-e))) 1 16

end Decimal

end Assignability
