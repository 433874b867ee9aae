/-
  Assignability.Relation.Key
  ──────────────────────────
  **KEY TYPES.**

  The key type of an index signature or a record says which names are
  keys.  A finite key type lists them: literals, enumerations and unions
  of these.  Every other key type is known by the names it admits, and by
  the sort of its keys.

  A number is a key by its canonical name, the text of the number, and a
  name is looked at as a number only where it is that text.

  Key types nest no deeper than `nesting`; what is deeper admits nothing
  and is neither finite nor of a sort.
-/
import Assignability.Decimal.Reader
import Assignability.Relation.Query

namespace Assignability

/-! ## §1. Names as numbers -/

namespace Store

variable {ρ : Type}

/-- The number whose text a name is. -/
def numberOf? (σ : Store ρ) (name : Atom) : Option Binary64 := Decimal.canonical? (σ.text name)

/-- Whether a name is the text of a number that is equal to `x`. -/
def isNameOf (σ : Store ρ) (x : Binary64) (name : Atom) : Bool :=
  (σ.numberOf? name).map Binary64.canonical == some x.canonical

end Store

/-! ## §2. Finite key types -/

/-- A key of a finite key type. -/
inductive Key where
  | name (text : Atom)
  | number (value : Binary64)
  deriving DecidableEq, Repr

namespace Key

/-- The levels of unions, brands and lazy nodes to which a key type is looked into. -/
def nesting : Nat := 17

variable {ρ : Type}

/-- Whether a name is this key. -/
def isNamed (σ : Store ρ) : Key → Atom → Bool
  | name text, n => text == n
  | number value, n => σ.isNameOf value n

/-- The field of an object that this key names, the first where several do. -/
def field? (σ : Store ρ) (shape : Layout) : Key → Option Field
  | name text => shape.field? text
  | number value => shape.fields.find? fun f => σ.isNameOf value f.name

end Key

/-! ## §3. Sorts of keys -/

/-- What kind of keys a key type has. -/
inductive KeySort where
  /-- No keys. -/
  | empty
  | string
  | number
  | symbol
  /-- Keys of several kinds, or of any. -/
  | mixed
  deriving DecidableEq, Repr

namespace KeySort

/-- The sort of the keys of either. -/
def join : KeySort → KeySort → KeySort
  | empty, t => t
  | s, empty => s
  | s, t => if s = t then s else mixed

/-- Whether two sorts are one, or one of them has no keys. -/
def isCompatible (s t : KeySort) : Bool := s == t || s == empty || t == empty

/-- The sort of a built-in type, if its values are keys. -/
def ofIntrinsic? : Intrinsic → Option KeySort
  | .never => some empty
  | .string => some string
  | .number | .nan => some number
  | .symbol => some symbol
  | .unknown | .any => some mixed
  | _ => none

/-- The sort of a literal, if its value is a key. -/
def ofLiteral? : Literal → Option KeySort
  | .string _ => some string
  | .number _ => some number
  | _ => none

end KeySort

/-! ## §4. Looking into key types -/

namespace Query

variable {ρ α β : Type}

/-- Whether a name is one of the keys of a key type, looked into `levels` deep. -/
def admitsWithin : Nat → Handle → Atom → Query ρ Bool
  | 0, _, _ => pure false
  | levels + 1, key, name => do
    let σ ← store
    match σ.node? key with
    | some (.intrinsic .string) | some (.intrinsic .unknown) | some (.intrinsic .any) => pure true
    | some (.intrinsic .number) => pure (σ.numberOf? name).isSome
    | some (.literal (.string text)) => pure (text == name)
    | some (.literal (.number value)) => pure (σ.isNameOf value name)
    | some (.union members) | some (.enumeration members) =>
      (σ.list members).anyM (admitsWithin levels · name)
    | some (.intersection members) => (σ.list members).allM (admitsWithin levels · name)
    | some (.branded base _) => admitsWithin levels base name
    | some (.lazy _) => do admitsWithin levels (← resolved key) name
    | _ => pure false

/-- Whether a name is one of the keys of a key type. -/
def admits (key : Handle) (name : Atom) : Query ρ Bool := admitsWithin Key.nesting key name

/-- The results of a query for every element, one list after the other; nothing as soon as one
query gives nothing. -/
def collect (q : α → Query ρ (Option (List β))) : List α → Query ρ (Option (List β))
  | [] => pure (some [])
  | x :: xs => do
    match ← q x with
    | none => pure none
    | some found => return (← collect q xs).map (found ++ ·)

/-- The keys of a key type with their literals, if it is finite, looked into `levels` deep. -/
def keysWithin? : Nat → Handle → Query ρ (Option (List (Key × Handle)))
  | 0, _ => pure none
  | levels + 1, key => do
    let σ ← store
    match σ.node? key with
    | some (.intrinsic .never) => pure (some [])
    | some (.literal (.string text)) => pure (some [(.name text, key)])
    | some (.literal (.number value)) => pure (some [(.number value, key)])
    | some (.union members) | some (.enumeration members) =>
      collect (keysWithin? levels) (σ.list members)
    | some (.lazy _) => do keysWithin? levels (← resolved key)
    | _ => pure none

/-- The keys of a key type with their literals, if it is finite. -/
def keys? (key : Handle) : Query ρ (Option (List (Key × Handle))) :=
  keysWithin? Key.nesting key

/-- The sort of the keys of all elements, starting from `sort`; nothing as soon as an element has
none. -/
def joinSorts (q : Handle → Query ρ (Option KeySort)) (sort : KeySort) :
    List Handle → Query ρ (Option KeySort)
  | [] => pure (some sort)
  | h :: hs => do
    match ← q h with
    | none => pure none
    | some next => joinSorts q (sort.join next) hs

/-- The sort of a key type, if it has one, looked into `levels` deep. -/
def sortWithin? : Nat → Handle → Query ρ (Option KeySort)
  | 0, _ => pure none
  | levels + 1, key => do
    let σ ← store
    match σ.node? key with
    | some (.intrinsic k) => pure (KeySort.ofIntrinsic? k)
    | some (.literal value) => pure (KeySort.ofLiteral? value)
    | some (.union members) | some (.enumeration members) =>
      joinSorts (sortWithin? levels) .empty (σ.list members)
    | some (.branded base _) => sortWithin? levels base
    | some (.lazy _) => do sortWithin? levels (← resolved key)
    | _ => pure none

/-- The sort of a key type; types whose values are no keys have none. -/
def sort? (key : Handle) : Query ρ (Option KeySort) := sortWithin? Key.nesting key

/-- Whether two key types have a key in common: one fits the other. -/
def overlap (a b : Handle) : Query ρ Bool :=
  askKeys a b fun forward =>
    if forward.isTrue then pure true else askKeys b a fun backward => pure backward.isTrue

end Query

end Assignability
