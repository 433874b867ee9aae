/-
  Assignability.Descriptor.Handle
  ───────────────────────────────
  **HANDLES AND OTHER NUMBERED NAMES.**

  A store keeps every descriptor once and speaks of it by a number.  Each
  table of the store has numbers of its own, so each kind of number is a
  type of its own: a handle is never taken for a shape or a list.

  Handles and atoms are ordered by their numbers: the members of a union
  stand in handle order, the fields of an object in atom order.
-/
namespace Assignability

/-! ## §1. Descriptors -/

/-- The number of a descriptor in its store. -/
structure Handle where
  number : Nat
  deriving DecidableEq, Hashable, Repr, Inhabited

namespace Handle

instance : LT Handle := ⟨fun a b => a.number < b.number⟩

instance (a b : Handle) : Decidable (a < b) :=
  inferInstanceAs (Decidable (a.number < b.number))

/-- Handles are ordered as their numbers are. -/
theorem lt_iff {a b : Handle} : a < b ↔ a.number < b.number := Iff.rfl

end Handle

/-! ## §2. Interned strings -/

/-- The number of an interned string. -/
structure Atom where
  number : Nat
  deriving DecidableEq, Hashable, Repr, Inhabited

namespace Atom

instance : LT Atom := ⟨fun a b => a.number < b.number⟩

instance (a b : Atom) : Decidable (a < b) :=
  inferInstanceAs (Decidable (a.number < b.number))

/-- The atom of the empty string. -/
def none : Atom := ⟨0⟩

end Atom

/-! ## §3. Side tables and definitions -/

/-- The number of a member list (of an enumeration, a union or an intersection). -/
structure ListId where
  number : Nat
  deriving DecidableEq, Hashable, Repr

/-- The number of an object shape. -/
structure ObjectId where
  number : Nat
  deriving DecidableEq, Hashable, Repr

/-- The number of a tuple shape. -/
structure TupleId where
  number : Nat
  deriving DecidableEq, Hashable, Repr

/-- The number of a function shape. -/
structure FunctionId where
  number : Nat
  deriving DecidableEq, Hashable, Repr

/-- The number of a lazy definition; definitions are counted from one. -/
structure LazyId where
  number : Nat
  deriving DecidableEq, Hashable, Repr

/-- Zero is the number of no definition. -/
def LazyId.isValid (d : LazyId) : Bool := 1 ≤ d.number

end Assignability
