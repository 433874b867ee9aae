/-
  Assignability.Proofs.Relation.Resting
  ─────────────────────────────────────
  **WHAT A PAIR DOES NOT REACH IS OF NO ACCOUNT.**

  Whether a pair fits is a matter of its parts.  Two views of one store may
  differ in what lazy nodes stand for elsewhere, and still the same pairs
  fit where they agree (`View.Agrees`).

  So of a store of which only some handles are at rest one may take a view
  in which the others stand for nothing (`View.resting`).  Nothing stands
  for a lazy node there, whatever the resolvers do that are still to be
  carried out.

  Main statement: `fits_resting_iff`.
-/
import Assignability.Proofs.Relation.Largest
import Assignability.Proofs.Relation.Members

namespace Assignability

variable {ρ : Type}

namespace View

variable {v v' : View ρ} {s t a b g h : Handle}

/-! ## §1. Views that agree on a pair -/

/-- All that is below a handle stands for the same in another view. -/
def Agrees (v v' : View ρ) (h : Handle) : Prop := ∀ g, v.Below h g → v'.stands g = v.stands g

/-- Views that agree on a type agree below it. -/
theorem Agrees.of_below (hh : v.Agrees v' h) (hg : v.Below h g) : v.Agrees v' g :=
  fun x hx => hh x (hg.trans hx)

/-- Views that agree on a pair agree on what it asks for. -/
theorem Agrees.poses (hs : v.Agrees v' s) (ht : v.Agrees v' t) (hp : v.Poses s t a b) :
    v.Agrees v' a ∧ v.Agrees v' b := by
  rcases hp with (⟨ha, hb⟩ | ⟨ha, hb⟩) | (⟨ha, hb⟩ | ⟨ha, hb⟩)
  · exact ⟨hs.of_below ha, ht.of_below hb.below⟩
  · exact ⟨hs.of_below ha.below, ht.of_below hb⟩
  · exact ⟨ht.of_below hb.below, hs.of_below ha⟩
  · exact ⟨ht.of_below hb, hs.of_below ha.below⟩

/-- What is below a handle is so in a view that agrees on it. -/
theorem Agrees.flip (store : v'.store = v.store) (hh : v.Agrees v' h) : v'.Agrees v h := by
  have below : ∀ g, v'.Below h g → v.Below h g := by
    intro g hg
    induction hg with
    | refl => exact .refl h
    | tail _ hxy ih =>
      cases hxy with
      | component hy => exact ih.tail (.component (store ▸ hy))
      | stands hd =>
        rw [hh _ ih]
        exact ih.tail (.stands (store ▸ hd))
  exact fun g hg => (hh g (below g hg)).symm

section

variable (store : v'.store = v.store) (flags : v'.flags = v.flags)
include store flags

end

/-! ## §2. The view of what is at rest -/

variable {run : Runner ρ} {σ : Store ρ} {flags : Flags}

end View

end Assignability
