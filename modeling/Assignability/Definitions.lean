/-
  Assignability.Definitions
  ─────────────────────────
  **LAZY DEFINITIONS.**

  A definition is declared first and gets its resolver later, at most
  once.  The first resolution that is recorded stays.  Definitions are
  numbered from one in the order of their declaration.

  Main statements: a definition that has a resolver keeps it
  (`define_of_isDefined`), and a recorded resolution stays
  (`resolution?_settle_of_some`).
-/
import Assignability.Descriptor.Handle

namespace Assignability

/-- A declared definition.  `ρ` is the type of resolvers. -/
structure Definition (ρ : Type) where
  resolver : Option ρ := none
  /-- What the definition was found to stand for. -/
  resolution : Option Handle := none

/-- The definitions of a store, in the order of their declaration. -/
structure Definitions (ρ : Type) where
  entries : Array (Definition ρ) := #[]

namespace Definitions

variable {ρ : Type}

/-- The place of a definition in the order of declaration. -/
def place? (d : LazyId) : Option Nat := if d.isValid then some (d.number - 1) else none

/-- The number of definitions. -/
def size (ds : Definitions ρ) : Nat := ds.entries.size

/-- The definition of a number. -/
def get? (ds : Definitions ρ) (d : LazyId) : Option (Definition ρ) :=
  (place? d).bind fun i => ds.entries[i]?

/-- Whether a definition is declared. -/
def contains (ds : Definitions ρ) (d : LazyId) : Bool := (ds.get? d).isSome

/-- Whether a definition has a resolver. -/
def isDefined (ds : Definitions ρ) (d : LazyId) : Bool :=
  ((ds.get? d).bind (·.resolver)).isSome

/-- What a definition was found to stand for. -/
def resolution? (ds : Definitions ρ) (d : LazyId) : Option Handle :=
  (ds.get? d).bind (·.resolution)

/-- Changes one definition. -/
def update (ds : Definitions ρ) (d : LazyId) (f : Definition ρ → Definition ρ) : Definitions ρ :=
  match place? d with
  | some i => ⟨ds.entries.modify i f⟩
  | none => ds

/-- A further definition, without a resolver. -/
def declare (ds : Definitions ρ) : LazyId × Definitions ρ :=
  (⟨ds.size + 1⟩, ⟨ds.entries.push {}⟩)

/-- Gives a declared definition its resolver, unless it has one. -/
def define (ds : Definitions ρ) (d : LazyId) (resolver : ρ) : Bool × Definitions ρ :=
  if ds.contains d && !ds.isDefined d then
    (true, ds.update d fun definition => { definition with resolver := some resolver })
  else (false, ds)

/-- Records what a definition stands for, unless that is on record. -/
def settle (ds : Definitions ρ) (d : LazyId) (h : Handle) : Definitions ρ :=
  ds.update d fun definition =>
    { definition with resolution := definition.resolution <|> some h }

/-! ## What the operations do -/

/-- An update touches one definition and leaves the others. -/
theorem get?_update (ds : Definitions ρ) (d e : LazyId) (f : Definition ρ → Definition ρ) :
    (ds.update d f).get? e = if d = e then (ds.get? e).map f else ds.get? e := by
  obtain ⟨m⟩ := d
  obtain ⟨n⟩ := e
  unfold update get? place? LazyId.isValid
  by_cases hm : 1 ≤ m <;> by_cases hn : 1 ≤ n <;> simp only [hm, hn, decide_true, decide_false,
    if_true, Option.bind_some, Option.bind_none, LazyId.mk.injEq, Bool.false_eq_true, if_false,
    Option.map_none, ite_self]
  · rw [Array.getElem?_modify]
    by_cases h : m = n
    · simp [h]
    · rw [if_neg (by omega), if_neg h]
  · by_cases h : m = n
    · omega
    · rw [if_neg h]

/-- What a definition is settled as stays with it if it was not resolved before. -/
theorem resolution?_settle (ds : Definitions ρ) (d : LazyId) (h : Handle) :
    (ds.settle d h).resolution? d = (ds.get? d).map fun definition =>
      definition.resolution.getD h := by
  unfold settle resolution?
  rw [get?_update, if_pos rfl]
  cases ds.get? d with
  | none => rfl
  | some definition => cases hr : definition.resolution <;> simp [hr]

/-- A resolution that is on record is not replaced, whatever is settled later. -/
theorem resolution?_settle_of_some {ds : Definitions ρ} {d e : LazyId} {g h : Handle}
    (hd : ds.resolution? e = some g) : (ds.settle d h).resolution? e = some g := by
  unfold settle resolution? at *
  rw [get?_update]
  split
  · cases he : ds.get? e with
    | none => simp [he] at hd
    | some definition => simp [he] at hd; simp [hd]
  · exact hd

/-- A definition with a resolver takes no other. -/
theorem define_of_isDefined {ds : Definitions ρ} {d : LazyId} (resolver : ρ)
    (h : ds.isDefined d = true) : ds.define d resolver = (false, ds) := by
  simp [define, h]

end Definitions

end Assignability
