/-
  Assignability.Decimal.Binary64
  ──────────────────────────────
  **DOUBLE-PRECISION NUMBERS AS BITS.**

  A number literal is sixty-four bits: a sign, an exponent field of eleven
  bits and a fraction of fifty-two.  The last two together are the
  magnitude, whose order is that of the absolute values: zero, the finite
  numbers, infinity, and above it what is not a number.

  `canonical` names the equality of literals: the two zeros are one number
  and all that is not a number is one.  `magnitudeOfRatio` is the magnitude
  nearest to a quotient of naturals, of two equally near the one with the
  even fraction.  All arithmetic is on `Nat`.
-/

namespace Assignability

/-- A double-precision number by its bits. -/
structure Binary64 where
  bits : UInt64
  deriving DecidableEq, Hashable, Repr, Inhabited

namespace Binary64

/-! ## §1. Fields -/

/-- The sign bit, the highest of sixty-four. -/
def signBit : Nat := 0x8000000000000000

/-- The lowest bit of the exponent field, above fifty-two fraction bits. -/
def exponentUnit : Nat := 0x10000000000000

/-- The bit above the magnitude. -/
def isNegative (x : Binary64) : Bool := signBit ≤ x.bits.toNat

/-- All bits but the sign. -/
def magnitude (x : Binary64) : Nat := x.bits.toNat % signBit

/-- The magnitude of infinity: every exponent bit and no fraction bit. -/
def infiniteMagnitude : Nat := 0x7ff * exponentUnit

/-- Either zero. -/
def isZero (x : Binary64) : Bool := x.magnitude == 0

/-- Either infinity. -/
def isInfinite (x : Binary64) : Bool := x.magnitude == infiniteMagnitude

/-- Above infinity stands what is not a number. -/
def isNaN (x : Binary64) : Bool := infiniteMagnitude < x.magnitude

/-- Below infinity stand the finite numbers. -/
def isFinite (x : Binary64) : Bool := x.magnitude < infiniteMagnitude

/-- The number of a sign and a magnitude. -/
def ofMagnitude (negative : Bool) (magnitude : Nat) : Binary64 :=
  ⟨UInt64.ofNat ((if negative then signBit else 0) + magnitude)⟩

/-- The significand `m` and the exponent `e` of a finite number `± m · 2 ^ e`. -/
def significand (x : Binary64) : Nat × Int :=
  let field : Nat := x.magnitude / exponentUnit
  let fraction : Nat := x.magnitude % exponentUnit
  if field = 0 then (fraction, (-1074 : Int)) else (fraction + exponentUnit, (field : Int) - 1075)

/-! ## §2. Equality of number literals -/

/-- Positive zero. -/
def zero : Binary64 := ⟨0⟩

/-- The one value that stands for all that is not a number. -/
def nan : Binary64 := ⟨0x7ff8000000000000⟩

/-- The number that stands for all numbers equal to `x`. -/
def canonical (x : Binary64) : Binary64 :=
  if x.isNaN then nan else if x.isZero then zero else x

/-- The name of a number is no number where the number is none. -/
theorem isNaN_canonical (x : Binary64) : x.canonical.isNaN = x.isNaN := by
  unfold canonical
  split
  · next h => rw [h]; decide
  · next h =>
    split
    · rw [Bool.not_eq_true] at h; rw [h]; decide
    · rfl

/-- A number that names itself is its own name. -/
theorem canonical_canonical (x : Binary64) : x.canonical.canonical = x.canonical := by
  by_cases hn : x.isNaN = true
  · have : x.canonical = nan := by simp [canonical, hn]
    rw [this]; decide
  · by_cases hz : x.isZero = true
    · have : x.canonical = zero := by simp [canonical, hn, hz]
      rw [this]; decide
    · have : x.canonical = x := by simp [canonical, hn, hz]
      rw [this, this]

/-! ## §3. The nearest number to a quotient -/

/-- The natural nearest to `num / den`; of two equally near the even one. -/
def roundRatio (num den : Nat) : Nat :=
  let q := num / den
  let r := num % den
  if 2 * r < den then q else if den < 2 * r then q + 1 else q + q % 2

/-- The factor `base ^ exponent`; one where the exponent is negative. -/
def factor (base : Nat) (exponent : Int) : Nat := Nat.pow base exponent.toNat

/-- Whether `2 ^ l ≤ num / den`. -/
def powTwoLe (l : Int) (num den : Nat) : Bool := den * factor 2 l ≤ num * factor 2 (-l)

/-- The magnitude nearest to `num / den`, infinity when it lies past the largest finite number.
A step of the magnitude is a step of the significand, also where the exponent field changes, so
the rounded significand is added to the field's bits. -/
def magnitudeOfRatio (num den : Nat) : Nat :=
  if num = 0 then 0
  else
    -- the power of two below the quotient is the guess or the one before it
    let guess : Int := (num.log2 : Int) - (den.log2 : Int)
    let top := if powTwoLe guess num den then guess else guess - 1
    -- the significand has fifty-three bits, or fewer among the smallest numbers
    let e := max (top - 52) (-1074)
    let q := roundRatio (num * factor 2 (-e)) (den * factor 2 e)
    min ((e + 1074).toNat * exponentUnit + q) infiniteMagnitude

end Binary64

end Assignability
