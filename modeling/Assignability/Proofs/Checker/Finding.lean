/-
  Assignability.Proofs.Checker.Finding
  ────────────────────────────────────
  **FINDINGS ARE RIGHT.**

  A question makes one comparison or two, with one checker.  Its finding
  is positive only where the relation holds (`holds_sound`), and negative
  only where it does not or a limit was hit (`holds_complete`); so without
  a limit the question is decided (`relate_iff`).
-/
import Assignability.Proofs.Checker.Verdicts

namespace Assignability

variable {ρ : Type} {run : Runner ρ} {v : View ρ} {kind : Question} {s t : Handle}
  {w : Inquiry ρ}

/-- What a question asks about a pair. -/
def View.Relates (v : View ρ) (kind : Question) (s t : Handle) : Prop :=
  v.Fits s t ∧ (kind = .identical → v.Fits t s)

/-- For assignability the other direction does not matter. -/
theorem View.relates_assignable {v : View ρ} : v.Relates .assignable s t ↔ v.Fits s t :=
  ⟨fun h => h.1, fun h => ⟨h, nofun⟩⟩

variable (run) in
/-- No question about keys is cut off where a question is asked about a pair. -/
def Question.KeysDecided (kind : Question) (s t : Handle) (w : Inquiry ρ) : Prop :=
  Assignability.KeysDecided run s t w ∧
    (kind = .identical → (check run s t w).1.isTrue = true →
      Assignability.KeysDecided run t s (check run s t w).2)

/-! ## Right findings -/

/-- Without a limit no question about keys is cut off, nor where none can come up. -/
theorem Idle.keysDecided (idle : Idle v w) (hs : v.Tame run s) (ht : v.Tame run t)
    (undisturbed : (∀ a b, ¬ v.PosesKeys s t a b) ∨
      (Store.holds run kind s t w).2.checker.exceeded = false) :
    kind.KeysDecided run s t w := by
  have forward := (idle.ends hs ht).decided
  have backward := ((idle.next hs ht).ends ht hs).decided
  -- there is no key question at all, or no limit was hit in either direction
  rcases undisturbed with noKeys | within
  · have noKeys' : ∀ a b, ¬ v.PosesKeys t s a b := fun a b h => noKeys a b h.swap
    exact ⟨forward (.inl noKeys), fun _ _ => backward (.inl noKeys')⟩
  · cases kind with
    | assignable => exact ⟨forward (.inr within), fun h => by cases h⟩
    | identical =>
      rw [holds_identical] at within
      split at within
      · have mid := (kept_check t s (check run s t w).2).within_limits within
        exact ⟨forward (.inr mid), fun _ _ => backward (.inr within)⟩
      · next hf => exact ⟨forward (.inr within), fun _ h => absurd h hf⟩

/-- A positive finding is right where the questions about keys were decided. -/
theorem Idle.holds_sound (idle : Idle v w) (exact : Exact v w) (hs : v.Tame run s)
    (ht : v.Tame run t) (decided : kind.KeysDecided run s t w)
    (h : (Store.holds run kind s t w).1 = true) : v.Relates kind s t := by
  have forward := idle.checked exact hs ht decided.1
  cases kind with
  | assignable => exact ⟨forward.sound h, fun h => by cases h⟩
  | identical =>
    rw [holds_identical] at h
    split at h
    · next hf =>
      have backward := (idle.next hs ht).checked forward.exact ht hs (decided.2 rfl hf)
      exact ⟨forward.sound hf, fun _ => backward.sound h⟩
    · cases h

/-- A negative finding is right where no limit was hit. -/
theorem Idle.holds_complete (idle : Idle v w) (exact : Exact v w) (hs : v.Tame run s)
    (ht : v.Tame run t) (within : (Store.holds run kind s t w).2.checker.exceeded = false)
    (h : v.Relates kind s t) : (Store.holds run kind s t w).1 = true := by
  cases kind with
  | assignable => exact (idle.check_iff exact hs ht within).2 h.1
  | identical =>
    have decided := idle.keysDecided hs ht (.inr within)
    have forward := idle.checked exact hs ht decided.1
    rw [holds_identical] at within ⊢
    split at within
    · next hf =>
      rw [if_pos hf]
      exact ((idle.next hs ht).check_iff forward.exact ht hs within).2 (h.2 rfl)
    · next hf =>
      rw [Bool.not_eq_true] at hf
      exact absurd h.1 (forward.complete hf within)

/-- **WITHOUT A LIMIT A QUESTION IS DECIDED**, where no key type is recursive. -/
theorem relate_iff_of_quiescent {policy : Policy} {σ : Store ρ} (hs : σ.Quiescent s)
    (ht : σ.Quiescent t) (within : (Store.relate run policy kind s t σ).1.exceeded = false) :
    (Store.relate run policy kind s t σ).1.related = true
      ↔ (View.of run σ policy.flags).Relates kind s t := by
  rw [relate_fst] at within ⊢
  have idle := idle_new run σ policy
  constructor
  · exact idle.holds_sound exact_new hs.tame ht.tame (idle.keysDecided hs.tame ht.tame (.inr within))
  · exact idle.holds_complete exact_new hs.tame ht.tame within

/-- A new checker that hits no limit finds what is so, where all that is reached is at rest. -/
theorem relate_iff {policy : Policy} {σ : Store ρ} (hs : σ.AtRest s) (ht : σ.AtRest t)
    (within : (Store.relate run policy kind s t σ).1.exceeded = false) :
    (Store.relate run policy kind s t σ).1.related = true
      ↔ (View.of run σ policy.flags).Relates kind s t :=
  relate_iff_of_quiescent hs.quiescent ht.quiescent within

/-- The same of one pair, whose key types may be recursive where they are not compared. -/
theorem relate_iff_of_pairTame {policy : Policy} {σ : Store ρ}
    (tame : (View.of run σ policy.flags).PairTame run s t)
    (within : (Store.relate run policy .assignable s t σ).1.exceeded = false) :
    (Store.relate run policy .assignable s t σ).1.related = true
      ↔ (View.of run σ policy.flags).Fits s t := by
  rw [relate_fst, holds_assignable] at within ⊢
  exact (idle_new run σ policy).pairCheck_iff exact_new tame within

/-- What is decided at once leaves the checker as it was. -/
theorem check_of_atOnce? {b : Bool} (h : w.store.atOnce? w.checker.flags s t = some b) :
    check run s t w = (.ofBool b, w) := by
  have known : w.known? s t = some b := by
    unfold Inquiry.known?
    rw [h]
  have step : ∀ step : Flags → Handle → Handle → Inquire ρ Answer,
      compareWith step s t w = (.ofBool b, w) := by
    intro step
    unfold compareWith
    rw [known]
  have checked : ∀ levels, compareWithin run levels s t w = (.ofBool b, w) := fun levels => by
    cases levels <;> exact step _
  exact checked _

/-- And hits no limit. -/
theorem relate_of_atOnce? {policy : Policy} {σ : Store ρ} {b : Bool}
    (h : σ.atOnce? policy.flags s t = some b) :
    (Store.relate run policy .assignable s t σ).1 = ⟨.assignable, b, false⟩ := by
  have checked : check run s t ⟨σ, .new policy⟩ = (.ofBool b, ⟨σ, .new policy⟩) :=
    check_of_atOnce? h
  rw [relate_fst, holds_assignable, checked, Answer.isTrue_ofBool]
  rfl

end Assignability
