/-
  Assignability.Walk.Levels
  ─────────────────────────
  **NESTING ALONE.**

  A walk that may come to the same key again is bounded by its levels
  alone: how deep it is, and how deep it may be.
-/

namespace Assignability

/-- The level a walk has reached. -/
structure Levels where
  limit : Nat
  depth : Nat := 0
  /-- A level past the limit was asked for. -/
  exceeded : Bool := false
  deriving DecidableEq, Repr

namespace Levels

/-- Goes one level down, if the limit lets it. -/
def enter (c : Levels) : Bool × Levels :=
  if c.limit ≤ c.depth then (false, { c with exceeded := true })
  else (true, { c with depth := c.depth + 1 })

/-- Goes one level up; `none` at the top. -/
def leave? (c : Levels) : Option Levels :=
  if c.depth = 0 then none else some { c with depth := c.depth - 1 }

/-- Goes one level up, and stays at the top. -/
def leave (c : Levels) : Levels := { c with depth := c.depth - 1 }

/-- Going up at the top changes nothing. -/
theorem leave_eq (c : Levels) : c.leave = c.leave?.getD c := by
  obtain ⟨limit, depth, exceeded⟩ := c
  cases depth <;> rfl

end Levels

end Assignability
