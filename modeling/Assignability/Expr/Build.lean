/-
  Assignability.Expr.Build
  ────────────────────────
  **CARRYING OUT EXPRESSIONS.**

  The parts of an expression are built from left to right, before the
  descriptor itself; the name of a field is interned before the field's
  type is built, and the strings of an enumeration before its literals.

  A recipe is the body of a lazy expression with the node it may speak of.
  Names are looked up when the recipe is carried out, in the scope of that
  moment.  Building never resolves a lazy node.

  A template may use others.  Templates that use each other without a lazy
  node in between would never end; they are expanded no deeper than there
  are templates, and stand for the empty type below that.
-/
import Assignability.Expr.Basic
import Assignability.Store.Resolve

namespace Assignability

/-- What a lazy node stands for: an expression, and the node that it may speak of. -/
structure Recipe where
  body : Expr
  this : Option Handle := none

/-- The names that expressions may use. -/
structure Scope where
  names : List (String × Handle) := []
  templates : List (String × Expr) := []

namespace Scope

/-- Gives a name to a descriptor; an earlier meaning of the name is lost. -/
def bind (s : Scope) (name : String) (h : Handle) : Scope :=
  { s with names := (name, h) :: s.names.filter (·.1 != name) }

/-- Gives a name to an expression; an earlier meaning of the name is lost. -/
def bindTemplate (s : Scope) (name : String) (body : Expr) : Scope :=
  { s with templates := (name, body) :: s.templates.filter (·.1 != name) }

/-- The descriptor under a name; the empty type under none. -/
def handle (s : Scope) (name : String) : Handle := (s.names.lookup name).getD .never

end Scope

/-! ## §1. Literals -/

/-- A value, with its string interned. -/
def LiteralExpr.build {ρ : Type} : LiteralExpr → Build ρ Literal
  | .string text => return .string (← Store.internText text)
  | .number value => return .number value
  | .boolean value => return .boolean value
  | .bigint digits => return .bigint (← Store.internText digits)

/-! ## §2. Expressions -/

/-- How templates are built: from their names and the node that `this` stands for. -/
abbrev Expander := String → Option Handle → Build Recipe Handle

mutual

/-- Builds an expression, where `this` stands for the node whose body it stands in. -/
def Expr.buildWith (scope : Scope) (expand : Expander) (this : Option Handle) :
    Expr → Build Recipe Handle
  | .handle h => pure h
  | .variable name => pure (scope.handle name)
  | .this => pure (this.getD .never)
  | .literal value => do Store.literal (← value.build)
  | .enumeration values => do Store.enumeration (← values.mapM LiteralExpr.build)
  | .stringEnumeration values => Store.stringEnumeration values
  | .array element => do Store.array (← element.buildWith scope expand this)
  | .set element => do Store.set (← element.buildWith scope expand this)
  | .promise inner => do Store.promise (← inner.buildWith scope expand this)
  | .record key value => do
    let key ← key.buildWith scope expand this
    let value ← value.buildWith scope expand this
    Store.record key value
  | .map key value => do
    let key ← key.buildWith scope expand this
    let value ← value.buildWith scope expand this
    Store.map key value
  | .tuple items => do
    let items ← Expr.buildAll scope expand this items
    Store.tupleOf ⟨items, none⟩
  | .tupleWithRest items rest => do
    let items ← Expr.buildAll scope expand this items
    let rest ← rest.buildWith scope expand this
    Store.tupleOf ⟨items, some rest⟩
  | .function parameters result => do
    let parameters ← Expr.buildAll scope expand this parameters
    let result ← result.buildWith scope expand this
    Store.functionOf ⟨⟨parameters, none⟩, result⟩
  | .functionWithRest parameters result rest => do
    let parameters ← Expr.buildAll scope expand this parameters
    let result ← result.buildWith scope expand this
    let rest ← rest.buildWith scope expand this
    Store.functionOf ⟨⟨parameters, some rest⟩, result⟩
  | .object fields => do
    let fields ← Expr.buildFields scope expand this fields
    Store.objectOf fields none
  | .indexedObject fields key value => do
    let fields ← Expr.buildFields scope expand this fields
    let key ← key.buildWith scope expand this
    let value ← value.buildWith scope expand this
    Store.objectOf fields (some ⟨key, value⟩)
  | .union members => do Store.union (← Expr.buildAll scope expand this members)
  | .intersection members => do
    Store.intersection (← Expr.buildAll scope expand this members)
  | .branded base brand => do
    let base ← base.buildWith scope expand this
    Store.branded base brand
  -- only a recursive body can name its own node; any other keeps the one around it
  | .lazy body => Store.lazyNode fun _ => ⟨body, this⟩
  | .lazyRec body => Store.lazyNode fun node => ⟨body, some node⟩
  | .declare => Store.declare
  | .template name => expand name this
  | .node n => Store.intern n

/-- Builds expressions from left to right. -/
def Expr.buildAll (scope : Scope) (expand : Expander) (this : Option Handle) :
    List Expr → Build Recipe (List Handle)
  | [] => pure []
  | e :: es => do
    let h ← e.buildWith scope expand this
    let hs ← Expr.buildAll scope expand this es
    pure (h :: hs)

/-- Builds a field: first its name, then its type. -/
def FieldExpr.buildWith (scope : Scope) (expand : Expander) (this : Option Handle) :
    FieldExpr → Build Recipe Field
  | .mk name type presence => do
    let name ← Store.internText name
    let type ← type.buildWith scope expand this
    pure ⟨name, type, presence.isOptional, presence.hasDefault⟩

/-- Builds fields from left to right. -/
def Expr.buildFields (scope : Scope) (expand : Expander) (this : Option Handle) :
    List FieldExpr → Build Recipe (List Field)
  | [] => pure []
  | f :: fs => do
    let field ← f.buildWith scope expand this
    let fields ← Expr.buildFields scope expand this fs
    pure (field :: fields)

end

/-! ## §3. Templates and recipes -/

/-- Builds the body of a template, in which templates are expanded `depth` levels deep. -/
def Scope.expandTo (scope : Scope) : Nat → Expander
  | 0, _, _ => pure .never
  | depth + 1, name, this =>
    match scope.templates.lookup name with
    | some body => body.buildWith scope (scope.expandTo depth) this
    | none => pure .never

/-- Builds an expression in a scope. -/
def Expr.build (scope : Scope) (e : Expr) (this : Option Handle) : Build Recipe Handle :=
  e.buildWith scope (scope.expandTo scope.templates.length) this

/-- Carries out a recipe in a scope. -/
def Scope.run (scope : Scope) : Runner Recipe := fun r => r.body.build scope r.this

end Assignability
