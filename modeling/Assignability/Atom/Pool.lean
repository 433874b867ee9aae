/-
  Assignability.Atom.Pool
  ───────────────────────
  **THE STRINGS BEHIND THE ATOMS.**

  A pool spreads its strings over sixty-four shards; which shard a string
  belongs to is the pool's own choice and may be any.  The atom of a
  string holds its shard in the six low bits and its place in the shard
  above them.  The empty string stands at place zero of shard zero from
  the start, so its atom is zero and no other string has that atom.

  A shard has places for as many strings as atoms of thirty-two bits can
  number.  A string that comes when its shard is full gets the atom of the
  empty string.
-/
import Assignability.Descriptor.Handle
import Assignability.Table

namespace Assignability

/-- The strings of one shard. -/
abbrev Shard := Table (id : String → String)

/-- Interned strings, spread over sixty-four shards. -/
structure Pool where
  /-- The shard of a string. -/
  assign : String → Fin 64
  shards : Vector Shard 64

namespace Pool

/-! ## §1. Atoms -/

/-- The atom of a place in a shard. -/
def atomOf (shard : Fin 64) (place : Nat) : Atom := ⟨place * 64 + shard⟩

/-- The shard of an atom. -/
def shardOf (a : Atom) : Fin 64 := ⟨a.number % 64, Nat.mod_lt _ (by decide)⟩

/-- The place of an atom in its shard. -/
def placeOf (a : Atom) : Nat := a.number / 64

/-- An atom tells the shard that it was given in. -/
theorem shardOf_atomOf (shard : Fin 64) (place : Nat) : shardOf (atomOf shard place) = shard := by
  apply Fin.ext
  show (place * 64 + shard.val) % 64 = shard.val
  have := shard.isLt
  omega

/-- And its place there. -/
theorem placeOf_atomOf (shard : Fin 64) (place : Nat) : placeOf (atomOf shard place) = place := by
  show (place * 64 + shard.val) / 64 = place
  have := shard.isLt
  omega

/-- Shard and place make up the whole atom. -/
theorem atomOf_shardOf_placeOf (a : Atom) : atomOf (shardOf a) (placeOf a) = a := by
  show Atom.mk (a.number / 64 * 64 + a.number % 64) = a
  rw [Nat.div_add_mod' a.number 64]

/-! ## §2. Interning -/

/-- The last place of a shard. -/
def lastPlace : Nat := 0xffffffff / 64

/-- The pool that holds the empty string alone. -/
def empty (assign : String → Fin 64) : Pool where
  assign := assign
  shards := (Vector.replicate 64 Table.empty).set 0 (Table.empty.intern "").2

/-- The strings of a shard. -/
def shard (p : Pool) (i : Fin 64) : Shard := p.shards[i]

/-- The atom of a string, which becomes a string of the pool if it is not one. -/
def intern (s : String) (p : Pool) : Atom × Pool :=
  if s = "" then (Atom.none, p)
  else
    let i := p.assign s
    let shard := p.shard i
    match shard.number? s with
    | some place => (atomOf i place, p)
    | none =>
      -- a place past the last has no atom of thirty-two bits
      if lastPlace < shard.size then (Atom.none, p)
      else
        let (place, shard) := shard.intern s
        (atomOf i place, { p with shards := p.shards.set i shard })

/-- Interns strings one after the other. -/
def internAll (strings : List String) (p : Pool) : Pool :=
  strings.foldl (fun p s => (p.intern s).2) p

/-! ## §3. Reading -/

/-- The string of an atom. -/
def resolve? (p : Pool) (a : Atom) : Option String := (p.shard (shardOf a)).get? (placeOf a)

/-- The string of an atom, the empty string for an atom that was never given out. -/
def resolve (p : Pool) (a : Atom) : String := (p.resolve? a).getD ""

/-- The number of strings, the empty string among them. -/
def size (p : Pool) : Nat := p.shards.foldl (fun n shard => n + shard.size) 0

/-- Whether there is no string but the empty one. -/
def isEmpty (p : Pool) : Bool := p.size ≤ 1

/-- Names of fields that nearly every schema has. -/
def commonNames : List String :=
  ["id", "name", "type", "kind", "value", "data", "items", "next", "children", "parent",
    "createdAt", "updatedAt"]

end Pool

end Assignability
