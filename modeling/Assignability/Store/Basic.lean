/-
  Assignability.Store.Basic
  ─────────────────────────
  **THE STORE OF DESCRIPTORS.**

  A store keeps every descriptor once, under a handle, and beside the
  descriptors the member lists and shapes that they speak of, the strings
  and the lazy definitions.  The built-in types are there from the start
  and keep their handles (`node?_handle`).

  What is built is never changed: a step of building only adds entries.
  `Build ρ` is the type of such steps; `ρ` is the type of resolvers.
-/
import Assignability.Atom.Pool
import Assignability.Definitions
import Assignability.Descriptor.Node
import Assignability.Descriptor.Shape
import Assignability.Table

namespace Assignability

/-! ## §1. Stores -/

/-- Member lists are told apart as their handles are. -/
instance : LawfulBEq (List Handle) := inferInstance

/-- Descriptors by their handles, with all that they are made of. -/
structure Store (ρ : Type) where
  nodes : Table Node.key
  lists : Table (id : List Handle → List Handle)
  objects : Table (id : Layout → Layout)
  tuples : Table (id : Sequence → Sequence)
  functions : Table (id : Signature → Signature)
  strings : Pool
  definitions : Definitions ρ
  /-- The built-in types have the first handles. -/
  get?_toNumber : ∀ k : Intrinsic, nodes.get? k.toNumber = some (.intrinsic k)

/-- A step of building: what it gives, and the store after it. -/
abbrev Build (ρ : Type) := StateM (Store ρ)

namespace Store

variable {ρ : Type}

/-- The table of the built-in types. -/
def builtIn : Table Node.key := Table.empty.internAll (Intrinsic.all.map .intrinsic)

/-- The first nodes of every store are the built-in types, by number. -/
theorem get?_builtIn (k : Intrinsic) : builtIn.get? k.toNumber = some (.intrinsic k) := by
  have h : builtIn.entries.toList = Intrinsic.all.map .intrinsic :=
    Table.toList_entries_internAll (by decide)
  show builtIn.entries[k.toNumber]? = _
  rw [← Array.getElem?_toList, h]
  cases k <;> rfl

/-- The store in which nothing has been built: the built-in types, the empty member list and the
common names. -/
def new (assign : String → Fin 64) : Store ρ where
  nodes := builtIn
  lists := (Table.empty.intern []).2
  objects := Table.empty
  tuples := Table.empty
  functions := Table.empty
  strings := (Pool.empty assign).internAll Pool.commonNames
  definitions := {}
  get?_toNumber := get?_builtIn

/-- The table of member lists that are written down. -/
def memberLists (lists : List (List Handle)) (new : (lists.map id).Nodup) :
    Table (id : List Handle → List Handle) := .ofList lists new

/-! ## §2. Reading -/

/-- The number of descriptors, the built-in types among them. -/
def size (s : Store ρ) : Nat := s.nodes.size

/-- The descriptor of a handle. -/
def node? (s : Store ρ) (h : Handle) : Option Node := s.nodes.get? h.number

/-- The handles of a member list; a list that was never built is empty. -/
def list (s : Store ρ) (l : ListId) : List Handle := (s.lists.get? l.number).getD []

/-- An object shape; one that was never built has no fields. -/
def object (s : Store ρ) (o : ObjectId) : Layout := (s.objects.get? o.number).getD {}

/-- A tuple shape; one that was never built has no items. -/
def tuple (s : Store ρ) (t : TupleId) : Sequence := (s.tuples.get? t.number).getD {}

/-- A function shape; one that was never built takes nothing and never returns. -/
def function (s : Store ρ) (f : FunctionId) : Signature :=
  (s.functions.get? f.number).getD {}

/-- The string of an atom. -/
def text (s : Store ρ) (a : Atom) : String := s.strings.resolve a

/-- The definition behind a handle, when the handle is that of a lazy node. -/
def lazyId? (s : Store ρ) (h : Handle) : Option LazyId :=
  match s.node? h with
  | some (.lazy d) => some d
  | _ => none

/-- The members of a union, or the literals of an enumeration. -/
def alternatives? (s : Store ρ) : Node → Option (List Handle)
  | .union members | .enumeration members => some (s.list members)
  | _ => none

/-- Every store has the built-in types, under their own handles. -/
theorem node?_handle (s : Store ρ) (k : Intrinsic) : s.node? k.handle = some (.intrinsic k) :=
  s.get?_toNumber k

/-! ## §3. Adding entries -/

/-- The handle of a descriptor. -/
def intern (node : Node) : Build ρ Handle := fun s =>
  let r := s.nodes.intern node
  (⟨r.1⟩, { s with
    nodes := r.2
    get?_toNumber := fun k => Table.get?_intern (s.get?_toNumber k) })

/-- The number of a member list. -/
def internList (members : List Handle) : Build ρ ListId := fun s =>
  let r := s.lists.intern members
  (⟨r.1⟩, { s with lists := r.2 })

/-- The number of an object shape. -/
def internObject (shape : Layout) : Build ρ ObjectId := fun s =>
  let r := s.objects.intern shape
  (⟨r.1⟩, { s with objects := r.2 })

/-- The number of a tuple shape. -/
def internTuple (shape : Sequence) : Build ρ TupleId := fun s =>
  let r := s.tuples.intern shape
  (⟨r.1⟩, { s with tuples := r.2 })

/-- The number of a function shape. -/
def internFunction (shape : Signature) : Build ρ FunctionId := fun s =>
  let r := s.functions.intern shape
  (⟨r.1⟩, { s with functions := r.2 })

/-- The atom of a string. -/
def internText (text : String) : Build ρ Atom := fun s =>
  let r := s.strings.intern text
  (r.1, { s with strings := r.2 })

/-- A further lazy definition. -/
def addDefinition : Build ρ LazyId := fun s =>
  let r := s.definitions.declare
  (r.1, { s with definitions := r.2 })

/-- Gives a lazy definition its resolver, unless it has one. -/
def attachResolver (d : LazyId) (resolver : ρ) : Build ρ Bool := fun s =>
  let r := s.definitions.define d resolver
  (r.1, { s with definitions := r.2 })

/-- Records what a lazy definition stands for, unless that is on record. -/
def recordResolution (d : LazyId) (h : Handle) : Build ρ Unit := fun s =>
  ((), { s with definitions := s.definitions.settle d h })

end Store

end Assignability
