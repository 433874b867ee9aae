/-
  Assignability.Store.Build
  ─────────────────────────
  **BUILDING DESCRIPTORS.**

  One step for each constructor.  Every step brings its parts into normal
  form first, so descriptors of equal structure have one handle: literals
  of an enumeration once each, fields by name, members of unions and
  intersections flattened one level and in order.

  Lazy nodes are the exception: each declaration makes a node of its own.
-/
import Assignability.Store.Basic
import Assignability.Store.Members

namespace Assignability.Store

variable {ρ : Type}

/-! ## §1. Literals and enumerations -/

/-- The type of one value. -/
def literal (value : Literal) : Build ρ Handle := intern (.literal value)

/-- A list without the repetitions of earlier elements. -/
def dedup (handles : List Handle) : List Handle :=
  (handles.foldl (fun kept h => if h ∈ kept then kept else h :: kept) []).reverse

/-- The type of the listed values, in the order of their declaration, each once; without values
it is empty. -/
def enumeration (values : List Literal) : Build ρ Handle := do
  let members := dedup (← values.mapM literal)
  if members.isEmpty then pure .never
  else intern (.enumeration (← internList members))

/-- The type of the listed strings. -/
def stringEnumeration (values : List String) : Build ρ Handle := do
  enumeration (← values.mapM fun value => return .string (← internText value))

/-! ## §2. Containers -/

/-- Lists of elements. -/
def array (element : Handle) : Build ρ Handle := intern (.array element)

/-- Lists by position. -/
def tupleOf (items : Sequence) : Build ρ Handle := do
  intern (.tuple (← internTuple items))

/-- A value for every key. -/
def record (key value : Handle) : Build ρ Handle := intern (.record key value)

/-- Mutable tables. -/
def map (key value : Handle) : Build ρ Handle := intern (.map key value)

/-- Mutable sets. -/
def set (element : Handle) : Build ρ Handle := intern (.set element)

/-- Values still to come. -/
def promise (inner : Handle) : Build ρ Handle := intern (.promise inner)

/-- Functions of a signature. -/
def functionOf (shape : Signature) : Build ρ Handle := do
  intern (.function (← internFunction shape))

/-- Objects with the declared fields, of every name the last declaration. -/
def objectOf (fields : List Field) (index : Option IndexSignature) : Build ρ Handle := do
  intern (.object (← internObject (.of fields index)))

/-! ## §3. Unions and intersections -/

/-- The members with those of member unions in place of the unions. -/
def flattenUnions (s : Store ρ) (members : List Handle) : List Handle :=
  members.flatMap fun h =>
    match s.node? h with
    | some (.union inner) => s.list inner
    | _ => [h]

/-- The members with those of member intersections in place of the intersections. -/
def flattenIntersections (s : Store ρ) (members : List Handle) : List Handle :=
  members.flatMap fun h =>
    match s.node? h with
    | some (.intersection inner) => s.list inner
    | _ => [h]

/-- The values of any member. -/
def union (members : List Handle) : Build ρ Handle := do
  match Joined.union (flattenUnions (← get) members) with
  | .single h => pure h
  | .several members => intern (.union (← internList members))

/-- The values of all members. -/
def intersection (members : List Handle) : Build ρ Handle := do
  match Joined.intersection (flattenIntersections (← get) members) with
  | .single h => pure h
  | .several members => intern (.intersection (← internList members))

/-! ## §4. Brands and lazy nodes -/

/-- The values of a type that carry a mark. -/
def branded (base : Handle) (brand : String) : Build ρ Handle := do
  intern (.branded base (← internText brand))

/-- A lazy node that has no resolver yet. -/
def declare : Build ρ Handle := do
  intern (.lazy (← addDefinition))

/-- Gives a lazy node its resolver; refused for other nodes and where there is a resolver. -/
def define (h : Handle) (resolver : ρ) : Build ρ Bool := do
  match (← get).lazyId? h with
  | some d => attachResolver d resolver
  | none => pure false

/-- A lazy node with a resolver, which may speak of the node itself. -/
def lazyNode (resolver : Handle → ρ) : Build ρ Handle := do
  let h ← declare
  let _ ← define h (resolver h)
  pure h

end Assignability.Store
