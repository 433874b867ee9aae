/-
  Assignability.Relation.Relate
  ─────────────────────────────
  **ASKING ABOUT A PAIR.**

  Each function here asks one question with a checker of its own, under a
  policy.  The store keeps what resolvers built on the way.
-/
import Assignability.Relation.Checker

namespace Assignability

/-- The relations that can be asked about. -/
inductive Question where
  /-- The source may be used for the target. -/
  | assignable
  /-- Each may be used for the other. -/
  | identical
  deriving DecidableEq, Repr

/-- What came of a question. -/
structure Finding where
  kind : Question
  related : Bool
  /-- A limit was hit; what it cut off counts as unrelated. -/
  exceeded : Bool
  deriving DecidableEq, Repr

namespace Store

variable {ρ : Type} (run : Runner ρ)

/-- Work with a new checker. -/
def withChecker {α : Type} (policy : Policy) (work : Inquire ρ α) : Build ρ (α × Checker) :=
  fun σ =>
    let r := work ⟨σ, .new policy⟩
    ((r.1, r.2.checker), r.2.store)

/-- Whether a relation holds of a pair, asked of a checker. -/
def holds (kind : Question) (s t : Handle) : Inquire ρ Bool := do
  let forward ← isRelated run s t
  match kind with
  | .assignable => pure forward
  | .identical => if forward then isRelated run t s else pure false

/-- Asks whether a relation holds of a pair. -/
def relate (policy : Policy) (kind : Question) (s t : Handle) : Build ρ Finding := do
  let (related, checker) ← withChecker policy (holds run kind s t)
  pure ⟨kind, related, checker.exceeded⟩

/-- Whether `s` may be used for `t`. -/
def assignable (policy : Policy) (s t : Handle) : Build ρ Bool :=
  return (← relate run policy .assignable s t).related

/-- Whether each of two descriptors may be used for the other. -/
def equivalent (s t : Handle) : Build ρ Bool :=
  return (← relate run {} .identical s t).related

end Store

end Assignability
