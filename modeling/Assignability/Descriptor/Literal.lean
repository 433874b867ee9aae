/-
  Assignability.Descriptor.Literal
  ────────────────────────────────
  **EXACT VALUES.**

  A literal type has one value: a string, a number, a truth value or a big
  integer, which is known by the text of its digits.  Literals are equal
  when their keys are: a number's key is its canonical number, so the two
  zeros are one literal and so is all that is not a number.
-/
import Assignability.Decimal.Binary64
import Assignability.Descriptor.Intrinsic

namespace Assignability

/-- The one value of a literal type. -/
inductive Literal where
  | string (text : Atom)
  | number (value : Binary64)
  | boolean (value : Bool)
  | bigint (digits : Atom)
  deriving DecidableEq, Hashable, Repr

namespace Literal

/-- The literal that stands for all literals equal to this one. -/
def key : Literal → Literal
  | number x => number x.canonical
  | l => l

/-- Literals of one value. -/
def Same (a b : Literal) : Prop := a.key = b.key

instance (a b : Literal) : Decidable (a.Same b) :=
  inferInstanceAs (Decidable (a.key = b.key))

/-- The built-in type of all values of this kind. -/
def primitive : Literal → Intrinsic
  | string _ => .string
  | number _ => .number
  | boolean _ => .boolean
  | bigint _ => .bigint

/-- Whether the value is the number literal that is not a number. -/
def isNaN : Literal → Bool
  | number x => x.isNaN
  | _ => false

/-- Names of literals name themselves. -/
theorem key_key (a : Literal) : a.key.key = a.key := by
  cases a <;> simp [key, Binary64.canonical_canonical]

/-- Every literal is the same as itself. -/
theorem Same.refl (a : Literal) : a.Same a := rfl

theorem Same.symm {a b : Literal} (h : a.Same b) : b.Same a := Eq.symm h

theorem Same.trans {a b c : Literal} (h : a.Same b) (h' : b.Same c) : a.Same c := Eq.trans h h'

end Literal

end Assignability
