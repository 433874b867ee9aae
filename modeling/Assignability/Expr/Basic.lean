/-
  Assignability.Expr.Basic
  ────────────────────────
  **TYPE EXPRESSIONS.**

  An expression says how a descriptor is built.  It may name descriptors
  that are there, by variable or by handle, and templates, which are
  expressions under a name.  The body of a lazy expression is not built
  but kept as a recipe: the resolver of the lazy node.
-/
import Assignability.Descriptor.Node

namespace Assignability

/-- A value that an expression writes out. -/
inductive LiteralExpr where
  | string (text : String)
  | number (value : Binary64)
  | boolean (value : Bool)
  | bigint (digits : String)
  deriving DecidableEq, Repr

/-- Whether the objects of a type carry a field. -/
inductive Presence where
  | required
  | optional
  /-- May be left out, and is filled in. -/
  | defaulted
  /-- Is never left out, though there is a default. -/
  | requiredWithDefault
  deriving DecidableEq, Repr

namespace Presence

/-- Whether the field may be left out. -/
def isOptional : Presence → Bool
  | optional | defaulted => true
  | required | requiredWithDefault => false

/-- Whether there is a default. -/
def hasDefault : Presence → Bool
  | defaulted | requiredWithDefault => true
  | required | optional => false

end Presence

mutual

/-- How a descriptor is built. -/
inductive Expr where
  /-- The descriptor of a handle. -/
  | handle (h : Handle)
  /-- The descriptor under a name. -/
  | variable (name : String)
  /-- The lazy node whose body this stands in. -/
  | this
  | literal (value : LiteralExpr)
  | enumeration (values : List LiteralExpr)
  | stringEnumeration (values : List String)
  | array (element : Expr)
  | set (element : Expr)
  | promise (inner : Expr)
  | record (key value : Expr)
  | map (key value : Expr)
  | tuple (items : List Expr)
  | tupleWithRest (items : List Expr) (rest : Expr)
  | function (parameters : List Expr) (result : Expr)
  | functionWithRest (parameters : List Expr) (result rest : Expr)
  | object (fields : List FieldExpr)
  | indexedObject (fields : List FieldExpr) (key value : Expr)
  | union (members : List Expr)
  | intersection (members : List Expr)
  | branded (base : Expr) (brand : String)
  /-- A lazy node that stands for what `body` builds. -/
  | lazy (body : Expr)
  /-- The same, where `body` may speak of the node itself. -/
  | lazyRec (body : Expr)
  /-- A lazy node without a resolver. -/
  | declare
  /-- The expression under a name, in this place. -/
  | template (name : String)
  /-- A descriptor whose parts are numbers already. -/
  | node (n : Node)

/-- A field that an expression declares. -/
inductive FieldExpr where
  | mk (name : String) (type : Expr) (presence : Presence)

end

end Assignability
