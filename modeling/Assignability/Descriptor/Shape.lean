/-
  Assignability.Descriptor.Shape
  ──────────────────────────────
  **THE PARTS OF OBJECTS, TUPLES AND FUNCTIONS.**

  A shape lists what a descriptor is made of; its parts are handles.  The
  fields of an object stand in the order of their names, each name once:
  `Field.normalize` puts a list of declarations into that order, where a
  later declaration of a name replaces an earlier one.
-/
import Assignability.Descriptor.Intrinsic

namespace Assignability

/-! ## §1. Fields -/

/-- A named field of an object. -/
structure Field where
  name : Atom
  type : Handle
  /-- The field may be left out. -/
  optional : Bool := false
  /-- A default fills the field in where it is left out. -/
  defaulted : Bool := false
  deriving DecidableEq, Hashable, Repr

namespace Field

/-- Whether every value of the object carries the field. -/
def isAlwaysPresent (f : Field) : Bool := !f.optional || f.defaulted

/-- Puts a field among fields declared after it: a later field of the same name stays. -/
def place (f : Field) : List Field → List Field
  | [] => [f]
  | g :: later =>
    if f.name < g.name then f :: g :: later
    else if f.name = g.name then g :: later
    else g :: place f later

/-- The fields in the order of their names, of every name the last declaration. -/
def normalize (fields : List Field) : List Field := fields.foldr place []

end Field

/-! ## §2. Shapes -/

/-- The fields without a name: every further key of type `key` holds a `value`. -/
structure IndexSignature where
  key : Handle
  value : Handle
  deriving DecidableEq, Hashable, Repr

/-- The fields of an object, in the order of their names, and its index signature. -/
structure Layout where
  fields : List Field := []
  index : Option IndexSignature := none
  deriving DecidableEq, Hashable, Repr

/-- The field of a name. -/
def Layout.field? (s : Layout) (name : Atom) : Option Field :=
  s.fields.find? (·.name == name)

/-- The shape of a list of declarations. -/
def Layout.of (fields : List Field) (index : Option IndexSignature) : Layout :=
  ⟨Field.normalize fields, index⟩

/-- A sequence by position: its first items, and the type of every further item if there may be
any. -/
structure Sequence where
  items : List Handle := []
  rest : Option Handle := none
  deriving DecidableEq, Hashable, Repr

/-- The parameters of a function and the type of its result. -/
structure Signature where
  parameters : Sequence := {}
  result : Handle := Handle.never
  deriving DecidableEq, Hashable, Repr

end Assignability
