/-
  Assignability.Walk.Limits
  ─────────────────────────
  **HOW FAR A WALK MAY GO.**

  A recursive walk is bounded twice: in how deeply it nests and in how
  many steps it tries in all.  The walks of this library have limits of
  their own; a policy may set others for checking.
-/

namespace Assignability

/-- The bounds of a walk. -/
structure Limits where
  /-- The deepest nesting. -/
  depth : Nat
  /-- The number of steps tried before the walk gives up. -/
  attempts : Nat
  deriving DecidableEq, Repr

namespace Limits

/-- Checking: deep enough for every descriptor that does not keep growing. -/
def checking : Limits := ⟨1000, 100000⟩

/-- Explaining goes down a single failing path. -/
def explaining : Limits := ⟨32, 10000⟩

/-- Printing: the levels of nesting that are shown. -/
def printing : Limits := ⟨8, 10000⟩

end Limits

end Assignability
