/-
  Assignability.Descriptor.Node
  ─────────────────────────────
  **DESCRIPTORS.**

  A node is a descriptor whose parts are handles, atoms and numbers of
  shapes.  Two nodes are the same when their keys are equal; they differ
  from their keys in number literals alone.
-/
import Assignability.Descriptor.Literal

namespace Assignability

/-- The constructor of a descriptor. -/
inductive Kind where
  | intrinsic
  | literal
  | enumeration
  | array
  | tuple
  | object
  | record
  | map
  | set
  | promise
  | function
  | union
  | intersection
  | lazy
  | branded
  deriving DecidableEq, Hashable, Repr

/-- One descriptor. -/
inductive Node where
  /-- A built-in type. -/
  | intrinsic (type : Intrinsic)
  /-- A type of one value. -/
  | literal (value : Literal)
  /-- Literal types, in the order of their declaration. -/
  | enumeration (members : ListId)
  /-- Lists of elements of one type. -/
  | array (element : Handle)
  /-- Lists by position. -/
  | tuple (shape : TupleId)
  /-- Named fields. -/
  | object (shape : ObjectId)
  /-- One value for every key. -/
  | record (key value : Handle)
  /-- A mutable table. -/
  | map (key value : Handle)
  /-- A mutable set. -/
  | set (element : Handle)
  /-- A value still to come. -/
  | promise (inner : Handle)
  /-- Functions of one signature. -/
  | function (shape : FunctionId)
  /-- The values of any member. -/
  | union (members : ListId)
  /-- The values of all members. -/
  | intersection (members : ListId)
  /-- Stands for what its definition resolves to. -/
  | lazy (definition : LazyId)
  /-- The values of `base` that carry a mark. -/
  | branded (base : Handle) (brand : Atom)
  deriving DecidableEq, Hashable, Repr

namespace Node

/-- The constructor of a node. -/
def kind : Node → Kind
  | intrinsic _ => .intrinsic
  | literal _ => .literal
  | enumeration _ => .enumeration
  | array _ => .array
  | tuple _ => .tuple
  | object _ => .object
  | record _ _ => .record
  | map _ _ => .map
  | set _ => .set
  | promise _ => .promise
  | function _ => .function
  | union _ => .union
  | intersection _ => .intersection
  | lazy _ => .lazy
  | branded _ _ => .branded

/-- The node that stands for all nodes that are the same as this one. -/
def key : Node → Node
  | literal value => literal value.key
  | n => n

/-- Nodes of one descriptor. -/
def Same (a b : Node) : Prop := a.key = b.key

instance (a b : Node) : Decidable (a.Same b) :=
  inferInstanceAs (Decidable (a.key = b.key))

/-- Names of descriptors name themselves. -/
theorem key_key (a : Node) : a.key.key = a.key := by
  cases a <;> simp [key, Literal.key_key]

/-- A descriptor is of the kind that its name is of. -/
theorem kind_key (a : Node) : a.key.kind = a.kind := by
  cases a <;> rfl

/-- Every descriptor is the same as itself. -/
theorem Same.refl (a : Node) : a.Same a := rfl

theorem Same.symm {a b : Node} (h : a.Same b) : b.Same a := Eq.symm h

theorem Same.trans {a b c : Node} (h : a.Same b) (h' : b.Same c) : a.Same c := Eq.trans h h'

end Node

end Assignability
