/-
  Assignability.Relation.Answer
  ─────────────────────────────
  **ANSWERS TO A COMPARISON.**

  A pair holds or fails.  Two answers more come from the walk: a pair that
  is being compared further up is assumed to hold, and a pair past a limit
  is cut off, which counts as failing but is not a verdict on the pair.
-/

namespace Assignability

/-- The answer to a comparison. -/
inductive Answer where
  | holds
  | fails
  /-- The pair is being compared further up. -/
  | assumed
  /-- A limit was hit. -/
  | cutOff
  deriving DecidableEq, Repr

namespace Answer

/-- Whether the source counts as assignable. -/
def isTrue : Answer → Bool
  | holds | assumed => true
  | fails | cutOff => false

/-- Whether the source counts as not assignable. -/
def isFalse (a : Answer) : Bool := !a.isTrue

/-- The answer of a test without parts. -/
def ofBool (b : Bool) : Answer := if b then holds else fails

/-- Of two failing answers, cut off when either is. -/
def failing (a b : Answer) : Answer := if a = cutOff then cutOff else b

/-- An answer made of a truth value is true where that is. -/
theorem isTrue_ofBool (b : Bool) : (ofBool b).isTrue = b := by
  cases b <;> rfl

end Answer

end Assignability
