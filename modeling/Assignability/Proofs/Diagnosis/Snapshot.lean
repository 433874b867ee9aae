/-
  Assignability.Proofs.Diagnosis.Snapshot
  ───────────────────────────────────────
  **EXPLANATIONS ON SNAPSHOTS.**

  An explanation goes on snapshots as it does with the checker that they
  are of.  Its levels are those that are left, so they need not be kept.

  Main statement: `explain?_eq_snapshot`.
-/
import Assignability.Proofs.Checker.Snapshot
import Assignability.Proofs.Diagnosis.Frame

namespace Assignability

variable {ρ : Type}

namespace Snapshot

variable (run : Runner ρ)

/-- The reason that a blame gives, with `explain` for a part. -/
def reasonFor (explain : Handle → Handle → StateM (Snapshot ρ) Reason) (s t : Handle) :
    Blame → StateM (Snapshot ρ) Reason
  | .reason r => pure r
  | .part a b around => fun w => (around (explain a b w).1, (explain a b w).2)
  | .endless => pure (.mismatch s t)

/-- Why a pair fails, with a number of levels left. -/
def explainWithin : Nat → Handle → Handle → StateM (Snapshot ρ) Reason
  | 0, s, t => pure (.limitExceeded s t)
  | levels + 1, s, t => fun w =>
    let r := answer run (check run) (Query.blame w.flags s t) w
    reasonFor (explainWithin levels) s t r.1 r.2

/-- Why a pair fails, unless it holds. -/
def explain? (levels : Nat) (s t : Handle) : StateM (Snapshot ρ) (Option Reason) := fun w =>
  let r := check run s t w
  if r.1.isTrue then (none, r.2)
  else if r.2.exceeded then (some (.limitExceeded s t), r.2)
  else
    let e := explainWithin run levels s t r.2
    (some e.1, e.2)

end Snapshot

variable {run : Runner ρ} {s t : Handle} {w : Inquiry ρ}

/-- Explaining on snapshots is explaining with the checker, level by level. -/
theorem snapshot_explainWithin (levels : Nat) : ∀ (s t : Handle) (w : Inquiry ρ),
    w.checker.explaining.depth + levels = w.checker.explaining.limit →
    Snapshot.explainWithin run levels s t w.snapshot
      = ((Inquire.explainWithin run levels s t w).1,
        (Inquire.explainWithin run levels s t w).2.snapshot) := by
  -- on the levels; the snapshot has no counter, so each level is shown not to need it
  induction levels with
  | zero =>
    intro s t w room
    unfold Inquire.explainWithin
    rw [Inquire.counted_of_le (by omega)]
    rfl
  | succ levels ih =>
    intro s t w room
    have deeper : w.checker.explaining.depth < w.checker.explaining.limit := by omega
    unfold Inquire.explainWithin
    rw [Inquire.counted_of_lt deeper]
    have level := Inquire.explaining_descended_of_lt deeper
    have same : w.snapshot = (Inquire.descended w).snapshot := rfl
    rw [same]
    generalize Inquire.descended w = w₁ at level
    have asked : Snapshot.answer run (Snapshot.check run) (Query.blame w₁.checker.flags s t)
        w₁.snapshot = ((inquire run (Query.blame w₁.checker.flags s t) w₁).1,
          (inquire run (Query.blame w₁.checker.flags s t) w₁).2.snapshot) :=
      snapshot_answer snapshot_check _ w₁
    have inner : (inquire run (Query.blame w₁.checker.flags s t) w₁).2.checker.explaining
        = w₁.checker.explaining := Inquire.levels_inquire _ w₁
    rw [Inquire.describe_apply]
    show Snapshot.reasonFor (Snapshot.explainWithin run levels) s t
      (Snapshot.answer run (Snapshot.check run) (Query.blame w₁.checker.flags s t) w₁.snapshot).1
      (Snapshot.answer run (Snapshot.check run) (Query.blame w₁.checker.flags s t)
        w₁.snapshot).2 = _
    rw [asked]
    generalize inquire run (Query.blame w₁.checker.flags s t) w₁ = r at inner ⊢
    obtain ⟨blame, w₂⟩ := r
    cases blame with
    | reason r => rfl
    | endless => rfl
    | part a b around =>
      have part := ih a b w₂ (by
        change w₂.checker.explaining = _ at inner
        rw [inner, level]
        dsimp only
        omega)
      show (around (Snapshot.explainWithin run levels a b w₂.snapshot).1,
        (Snapshot.explainWithin run levels a b w₂.snapshot).2) = _
      rw [part]
      rfl

/-- The same holds of the check and the explanation together. -/
theorem snapshot_explain? (top : w.checker.explaining.depth = 0) :
    Snapshot.explain? run w.checker.explaining.limit s t w.snapshot
      = ((Inquire.explain? run s t w).1, (Inquire.explain? run s t w).2.snapshot) := by
  have level : (check run s t w).2.checker.explaining = w.checker.explaining :=
    explaining_check s t w
  unfold Snapshot.explain?
  rw [snapshot_check, Inquire.explain?_apply]
  dsimp only
  by_cases related : (check run s t w).1.isTrue = true
  · rw [if_pos related, if_pos related]
  · rw [if_neg related, if_neg related]
    -- the mark of the limits is in the snapshot, the level is not
    cases cut : (check run s t w).2.checker.exceeded with
    | true =>
      have exceeded : (check run s t w).2.snapshot.exceeded = true := cut
      rw [Inquire.explainFailing_of_exceeded cut, if_pos exceeded]
    | false =>
      have within : ¬ (check run s t w).2.snapshot.exceeded = true := by
        show ¬ (check run s t w).2.checker.exceeded = true
        rw [cut]
        decide
      rw [Inquire.explainFailing_of_within cut, if_neg within, level,
        snapshot_explainWithin _ s t _ (by rw [level]; omega)]

/-- **AN EXPLANATION AFTER COMPARISONS IS WHAT COMES OUT ON SNAPSHOTS.** -/
theorem explain?_eq_snapshot (run : Runner ρ) (policy : Policy) (σ : Store ρ)
    (earlier : List Pair) (s t : Handle) :
    (Inquire.explain? run s t (.after run earlier ⟨σ, .new policy⟩)).1
        = (Snapshot.explain? run Limits.explaining.depth s t
          (.after run earlier (.new σ policy))).1 ∧
      (Inquire.explain? run s t (.after run earlier ⟨σ, .new policy⟩)).2.checker.exceeded
        = (Snapshot.explain? run Limits.explaining.depth s t
          (.after run earlier (.new σ policy))).2.exceeded := by
  have level : (Inquiry.after run earlier ⟨σ, .new policy⟩).checker.explaining
      = (Checker.new policy).explaining := explaining_after earlier _
  rw [← snapshot_new, snapshot_after]
  generalize Inquiry.after run earlier ⟨σ, .new policy⟩ = w at level
  have same : Snapshot.explain? run w.checker.explaining.limit s t w.snapshot = _ :=
    snapshot_explain? (by rw [level]; rfl)
  rw [level] at same
  change Snapshot.explain? run Limits.explaining.depth s t w.snapshot = _ at same
  rw [same]
  exact ⟨rfl, rfl⟩

end Assignability
