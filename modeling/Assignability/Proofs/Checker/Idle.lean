/-
  Assignability.Proofs.Checker.Idle
  ─────────────────────────────────
  **A CHECKER BETWEEN TWO CALLS.**

  Pairs on the path were entered at a depth of one or more, so no
  assumption speaks of a depth above the outermost pair
  (`grounded_compareWithin`).  There every assumption is settled: a
  comparison that is made from outside never ends in one, and leaves none
  behind.  With the path empty before, it is empty again.

  Main statement: `IsIdle.check`.
-/
import Assignability.Proofs.Checker.Verdicts

namespace Assignability

variable {ρ : Type} {run : Runner ρ} {s t : Handle} {w : Inquiry ρ}

/-! ## §1. Depths of assumptions -/

/-- All depths that are spoken of are those of pairs: one, or more. -/
structure Grounded (w : Inquiry ρ) : Prop where
  path : ∀ (p : Pair) (d : Nat), w.checker.guard.path[p]? = some d → 1 ≤ d
  assumption : isSelfContained w.checker.assumption 1 = true

/-- Nothing is grounded deeper than the path when a pair is opened. -/
theorem Grounded.opened (h : Grounded w) (p : Pair) (attempts : Nat) :
    Grounded (w.opened p attempts) where
  path := by
    intro q d hd
    rcases getElem?_path_opened hd with ⟨-, rfl⟩ | hd
    · exact Nat.succ_le_succ (Nat.zero_le _)
    · exact h.path q d hd
  assumption := rfl

/-- Nor is it when the pair is concluded. -/
theorem Grounded.conclude {p : Pair} {attempts : Nat} {a : Answer} {w' : Inquiry ρ}
    (h : Grounded w) (kept : Kept (w.opened p attempts) w') (inner : Grounded w')
    (offPath : w.checker.guard.path[p]? = none) :
    Grounded (Inquire.update (Checker.conclude p w.checker.assumption a) w').2 where
  path := by
    intro q d hd
    rw [(kept_conclude kept offPath).path] at hd
    exact h.path q d hd
  assumption := by
    rw [assumption_conclude]
    split
    · exact h.assumption
    · rw [isSelfContained_shallower, h.assumption, inner.assumption]
      rfl

/-- Comparing keeps a checker grounded where its rule does. -/
theorem grounded_compareWith {step : Flags → Handle → Handle → Inquire ρ Answer}
    (keeps : ∀ flags s t w, Kept w (step flags s t w).2)
    (steps : ∀ flags s t w, Grounded w → Grounded (step flags s t w).2) (s t : Handle)
    (w : Inquiry ρ) (h : Grounded w) : Grounded (compareWith step s t w).2 := by
  generalize hr : compareWith step s t w = r
  have way := compared step s t w
  rw [hr] at way
  cases way with
  | known _ _ => exact h
  | cycle _ onPath =>
    refine ⟨h.path, ?_⟩
    rw [isSelfContained_shallower, h.assumption]
    exact decide_eq_true (h.path _ _ onPath)
  | refused _ => exact ⟨h.path, h.assumption⟩
  | entered _ _ offPath _ =>
    exact h.conclude (keeps _ s t _) (steps _ s t _ (h.opened _ _)) offPath

/-- What holds after each of its questions holds after a query. -/
theorem answer_invariant {α : Type} {P : Inquiry ρ → Prop}
    {related : Handle → Handle → Inquire ρ Answer}
    (resolved : ∀ h w, P w → P ⟨(Store.resolve run h w.store).2, w.checker⟩)
    (asked : ∀ a b w, P w → P (related a b w).2) (q : Query ρ α) :
    ∀ w, P w → P (answer run related q w).2 := by
  induction q with
  | done a => exact fun _ h => h
  | ask a b next ih => exact fun w h => ih _ _ (asked a b w h)
  | askKeys a b next ih => exact fun w h => ih _ _ (asked a b w h)
  | resolve g next ih => exact fun w h => ih _ _ (resolved g w h)
  | look next ih => exact fun w h => ih _ w h

/-- And so it does with any number of levels. -/
theorem grounded_compareWithin (levels : Nat) : ∀ (s t : Handle) (w : Inquiry ρ),
    Grounded w → Grounded (compareWithin run levels s t w).2 := by
  induction levels with
  | zero => exact grounded_compareWith (fun _ _ _ w => .refl w) fun _ _ _ _ h => h
  | succ levels ih =>
    refine grounded_compareWith (fun _ _ _ => kept_answer (kept_compareWithin levels) _)
      fun _ _ _ => ?_
    exact answer_invariant (fun _ _ h => ⟨h.path, h.assumption⟩) ih _

/-! ## §2. The store, and the levels of an explanation -/

section

variable {I : Store ρ → Prop}

/-- What the rule keeps of the store is kept by the comparison. -/
theorem store_compareWith {step : Flags → Handle → Handle → Inquire ρ Answer}
    (steps : ∀ flags s t w, I w.store → I (step flags s t w).2.store) (s t : Handle)
    (w : Inquiry ρ) (h : I w.store) : I (compareWith step s t w).2.store := by
  generalize hr : compareWith step s t w = r
  have way := compared step s t w
  rw [hr] at way
  cases way with
  | known _ _ => exact h
  | cycle _ _ => exact h
  | refused _ => exact h
  | entered _ _ _ _ => exact steps _ s t _ h

/-- What is left as it was when a lazy node is resolved is left so by comparing. -/
theorem store_check (resolved : ∀ h σ, I σ → I (Store.resolve run h σ).2) (s t : Handle)
    (w : Inquiry ρ) (h : I w.store) : I (check run s t w).2.store := by
  have within : ∀ (levels : Nat) (s t : Handle) (w : Inquiry ρ), I w.store →
      I (compareWithin run levels s t w).2.store := by
    intro levels
    induction levels with
    | zero => exact store_compareWith fun _ _ _ _ h => h
    | succ levels ih =>
      refine store_compareWith fun _ _ _ => ?_
      exact answer_invariant (fun h w => resolved h w.store) ih _
  exact within _ s t w h

end

/-- Comparing does not touch the levels of explanations. -/
theorem explaining_compareWith {step : Flags → Handle → Handle → Inquire ρ Answer}
    (steps : ∀ flags s t w, (step flags s t w).2.checker.explaining = w.checker.explaining)
    (s t : Handle) (w : Inquiry ρ) :
    (compareWith step s t w).2.checker.explaining = w.checker.explaining := by
  generalize hr : compareWith step s t w = r
  have way := compared step s t w
  rw [hr] at way
  cases way with
  | known _ _ => rfl
  | cycle _ _ => rfl
  | refused _ => rfl
  | entered _ _ _ _ => exact steps _ s t _

/-- Comparing does not go into the levels of an explanation. -/
theorem explaining_compareWithin (levels : Nat) : ∀ (s t : Handle) (w : Inquiry ρ),
    (compareWithin run levels s t w).2.checker.explaining = w.checker.explaining := by
  induction levels with
  | zero => exact explaining_compareWith fun _ _ _ _ => rfl
  | succ levels ih =>
    refine explaining_compareWith fun _ _ _ w => ?_
    exact answer_invariant (P := fun w' => w'.checker.explaining = w.checker.explaining)
      (fun _ _ h => h) (fun a b w' h => (ih a b w').trans h) _ w rfl

/-- Nor does a check. -/
theorem explaining_check (s t : Handle) (w : Inquiry ρ) :
    (check run s t w).2.checker.explaining = w.checker.explaining :=
  explaining_compareWithin _ s t w

/-- Nor do checks one after the other. -/
theorem explaining_after (earlier : List Pair) : ∀ w : Inquiry ρ,
    (Inquiry.after run earlier w).checker.explaining = w.checker.explaining := by
  induction earlier with
  | nil => exact fun _ => rfl
  | cons p ps ih => exact fun w => (ih _).trans (explaining_check p.1 p.2 w)

/-! ## §3. Calls from outside -/

/-- Whether a checker compares nothing at the moment. -/
structure Checker.IsIdle (c : Checker) : Prop where
  depth : c.guard.depth = 0
  path : ∀ p : Pair, c.guard.path[p]? = none
  assumption : c.assumption = none

/-- A new checker is idle. -/
theorem Checker.isIdle_new (policy : Policy) : (Checker.new policy).IsIdle :=
  ⟨rfl, fun _ => Std.HashMap.getElem?_empty, rfl⟩

/-- An idle checker has assumed nothing. -/
theorem Checker.IsIdle.grounded (h : w.checker.IsIdle) : Grounded w where
  path := by
    intro p d hd
    rw [h.path] at hd
    cases hd
  assumption := by
    rw [h.assumption]
    rfl

/-- The outermost pair settles all assumptions. -/
theorem Checker.IsIdle.compareWith {step : Flags → Handle → Handle → Inquire ρ Answer}
    (h : w.checker.IsIdle) (keeps : ∀ flags s t w, Kept w (step flags s t w).2)
    (steps : ∀ flags s t w, Grounded w → Grounded (step flags s t w).2) (s t : Handle) :
    (compareWith step s t w).1 ≠ .assumed ∧
      (compareWith step s t w).2.checker.assumption = none := by
  generalize hr : Assignability.compareWith step s t w = r
  have way := compared step s t w
  rw [hr] at way
  cases way with
  | @known b _ _ => exact ⟨by cases b <;> nofun, h.assumption⟩
  -- nothing is on the path that a pair could come back to
  | cycle _ onPath =>
    rw [h.path] at onPath
    cases onPath
  | refused _ => exact ⟨nofun, h.assumption⟩
  -- what is assumed inside rests at the pair itself, so it is taken as proved here
  | @entered attempts _ _ _ _ =>
    have inner := steps w.checker.flags s t _ (h.grounded.opened (s, t) attempts)
    have kept := keeps w.checker.flags s t (w.opened (s, t) attempts)
    generalize step w.checker.flags s t (w.opened (s, t) attempts) = r' at inner kept
    obtain ⟨a, w'⟩ := r'
    have settled : isSelfContained w'.checker.assumption w'.checker.guard.depth = true := by
      rw [kept.depth]
      show isSelfContained _ (w.checker.guard.depth + 1) = true
      rw [h.depth]
      exact inner.assumption
    constructor
    · show (if (isSelfContained w'.checker.assumption w'.checker.guard.depth && a == .assumed) = true
        then Answer.holds else a) ≠ _
      rw [settled]
      cases a <;> nofun
    · rw [assumption_conclude, if_pos settled]
      exact h.assumption

/-- **A CALL FROM OUTSIDE NEVER ENDS IN AN ASSUMPTION**, and leaves the checker idle. -/
theorem Checker.IsIdle.check (h : w.checker.IsIdle) (s t : Handle) :
    (check run s t w).1 ≠ .assumed ∧ (check run s t w).2.checker.IsIdle := by
  have outermost : (Assignability.check run s t w).1 ≠ .assumed ∧
      (Assignability.check run s t w).2.checker.assumption = none := by
    show (compareWithin run w.checker.guard.limits.depth s t w).1 ≠ .assumed ∧
      (compareWithin run w.checker.guard.limits.depth s t w).2.checker.assumption = none
    cases w.checker.guard.limits.depth with
    | zero => exact h.compareWith (fun _ _ _ w => .refl w) (fun _ _ _ _ h => h) s t
    | succ levels =>
      refine h.compareWith (fun _ _ _ => kept_answer (kept_compareWithin levels) _)
        (fun _ _ _ => ?_) s t
      exact answer_invariant (fun _ _ h => ⟨h.path, h.assumption⟩)
        (grounded_compareWithin levels) _
  have kept : Kept w (Assignability.check run s t w).2 := kept_check s t w
  exact ⟨outermost.1, kept.depth.trans h.depth, fun p => (kept.path p).trans (h.path p),
    outermost.2⟩

end Assignability
