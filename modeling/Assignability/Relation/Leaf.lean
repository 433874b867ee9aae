/-
  Assignability.Relation.Leaf
  ───────────────────────────
  **PAIRS THAT ARE DECIDED AT ONCE.**

  The types at the two ends, equal handles, and pairs of built-in types
  and literals have no parts to compare.  They are decided before the walk
  is entered, so they count against no limit.
-/
import Assignability.Policy
import Assignability.Store.Basic

namespace Assignability

/-! ## §1. Built-in types and literals -/

/-- Whether all values of one built-in type are values of another: not-a-number is a number,
undefined is void, and every type is itself. -/
def Intrinsic.widensTo : Intrinsic → Intrinsic → Bool
  | .nan, .number => true
  | .undefined, .void => true
  | s, t => s == t

/-- Whether a value is a value of a built-in type that has a literal's kind of values. -/
def Literal.fits (value : Literal) (t : Intrinsic) : Bool :=
  value.primitive == t || (value.isNaN && t == .nan)

/-- A pair of built-in types and literals.  Literals are stored once each, so two handles are two
values. -/
def Node.leafPair? : Node → Node → Option Bool
  | .intrinsic s, .intrinsic t => some (s.widensTo t)
  | .literal value, .intrinsic t => some (value.fits t)
  | .intrinsic _, .literal _ => some false
  | .literal _, .literal _ => some false
  | _, _ => none

/-! ## §2. Pairs of handles -/

namespace Store

variable {ρ : Type}

/-- A pair of handles of built-in types and literals. -/
def leafPair? (σ : Store ρ) (s t : Handle) : Option Bool := do
  (← σ.node? s).leafPair? (← σ.node? t)

/-- The answer to a pair that has no parts to compare: everything is assignable to `unknown` and
`any`, `never` and, unless it is strict, `any` are assignable to everything, and everything is
assignable to itself. -/
def atOnce? (σ : Store ρ) (flags : Flags) (s t : Handle) : Option Bool :=
  if t = .unknown ∨ s = .never ∨ t = .any then some true
  else if s = .any ∧ flags.strictAny = false then some true
  else if s = t then some true
  else σ.leafPair? s t

/-- Whether a handle is that of a truth value, or of an enumeration with that truth value. -/
def hasBoolean (σ : Store ρ) (value : Bool) (h : Handle) : Bool :=
  match σ.node? h with
  | some (.literal (.boolean b)) => b == value
  | some (.enumeration members) =>
    (σ.list members).any fun m =>
      match σ.node? m with
      | some (.literal (.boolean b)) => b == value
      | _ => false
  | _ => false

end Store

end Assignability
