/-
  Assignability.Walk.Guard
  ────────────────────────
  **THE ACTIVE PATH OF A WALK.**

  A guard knows the keys that a walk is at work on.  Entering a key that
  is on the path is a cycle; entering one that is not puts it on the path,
  unless a limit stands against it.  Every attempt counts, also one that
  is refused.  That a limit was hit is remembered until the guard is
  reset.

  The limit on attempts is looked at first, then the path, then the depth:
  a cycle is reported as one even at the deepest level.
-/
import Assignability.Walk.Limits
import Std.Data.HashMap

namespace Assignability

/-- What became of an attempt to enter a key. -/
inductive Entry where
  /-- The key is on the path now. -/
  | entered
  /-- The key was on the path already. -/
  | cycle
  /-- The path is as deep as it may be. -/
  | tooDeep
  /-- There were as many attempts as there may be. -/
  | exhausted
  deriving DecidableEq, Repr

/-- Whether a limit refused the key. -/
def Entry.isRefused : Entry → Bool
  | tooDeep | exhausted => true
  | entered | cycle => false

/-- The keys a walk is at work on, with its limits. -/
structure Guard (κ : Type) [BEq κ] [Hashable κ] where
  limits : Limits
  /-- The keys on the path, each with the depth at which it was entered. -/
  path : Std.HashMap κ Nat := ∅
  depth : Nat := 0
  attempts : Nat := 0
  /-- A limit has refused a key since the last reset. -/
  exceeded : Bool := false

namespace Guard

variable {κ : Type} [BEq κ] [Hashable κ]

/-- Attempts are counted up to here. -/
def lastAttempt : Nat := 0xffffffff

/-- Whether a key is on the path. -/
def contains (g : Guard κ) (k : κ) : Bool := g.path.contains k

/-- Whether any key is on the path. -/
def isBusy (g : Guard κ) : Bool := 0 < g.depth

/-- Tries to put a key on the path. -/
def enter (k : κ) (g : Guard κ) : Entry × Guard κ :=
  let ⟨limits, path, depth, attempts, exceeded⟩ := g
  let attempts := min (attempts + 1) lastAttempt
  if limits.attempts < attempts then (.exhausted, ⟨limits, path, depth, attempts, true⟩)
  else if path.contains k then (.cycle, ⟨limits, path, depth, attempts, exceeded⟩)
  else if limits.depth ≤ depth then (.tooDeep, ⟨limits, path, depth, attempts, true⟩)
  else (.entered, ⟨limits, path.insert k (depth + 1), depth + 1, attempts, exceeded⟩)

/-- Takes a key off the path; `none` for a key that is not on it. -/
def leave? (k : κ) (g : Guard κ) : Option (Guard κ) :=
  let ⟨limits, path, depth, attempts, exceeded⟩ := g
  if path.contains k then some ⟨limits, path.erase k, depth - 1, attempts, exceeded⟩ else none

/-- Takes a key off the path, and changes nothing for a key that is not on it. -/
def leave (k : κ) (g : Guard κ) : Guard κ :=
  let ⟨limits, path, depth, attempts, exceeded⟩ := g
  if path.contains k then ⟨limits, path.erase k, depth - 1, attempts, exceeded⟩
  else ⟨limits, path, depth, attempts, exceeded⟩

/-- Enters a key, takes the value of `f`, and leaves the key; where it cannot be entered, says
why. -/
def scope {α : Type} (k : κ) (f : Unit → α) (g : Guard κ) : Except Entry α × Guard κ :=
  match g.enter k with
  | (.entered, g) => (.ok (f ()), g.leave k)
  | (refusal, g) => (.error refusal, g)

/-- The guard as it was at first, with the same limits. -/
def reset (g : Guard κ) : Guard κ := { limits := g.limits }

/-- Leaving a key that is not on the path changes nothing but the depth. -/
theorem leave_eq (k : κ) (g : Guard κ) : g.leave k = (g.leave? k).getD g := by
  obtain ⟨limits, path, depth, attempts, exceeded⟩ := g
  unfold leave leave?
  by_cases h : path.contains k = true <;> simp [h]

end Guard

end Assignability
