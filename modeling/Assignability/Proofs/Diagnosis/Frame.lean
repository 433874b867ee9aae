/-
  Assignability.Proofs.Diagnosis.Frame
  ────────────────────────────────────
  **WHAT AN EXPLANATION LEAVES AS IT WAS.**

  An explanation resolves lazy nodes, compares pairs, and counts its own
  levels.  What lasts through each of these lasts through the whole
  (`Lasts.explain?`): the path and the limits of the checker, that it is
  idle, and whatever resolving keeps of the store.  The levels are those
  of before, as each that was entered is left again.

  Main statements: `Lasts.explain?` and `levels_explain?`.
-/
import Assignability.Diagnosis.Explain
import Assignability.Proofs.Checker.Idle

namespace Assignability.Inquire

variable {ρ : Type} {run : Runner ρ} {P : Inquiry ρ → Prop} {s t : Handle} {w : Inquiry ρ}

/-- One level of an explanation finds the blame and then gives the reason for it. -/
theorem describe_apply (explain : Handle → Handle → Inquire ρ Reason) (s t : Handle)
    (w : Inquiry ρ) : describe run explain s t w
      = reasonFor explain s t (inquire run (Query.blame w.checker.flags s t) w).1
        (inquire run (Query.blame w.checker.flags s t) w).2 := by
  unfold describe
  rfl

/-- Within the limits a failing pair is explained level by level. -/
theorem explainFailing_of_within (within : w.checker.exceeded = false) :
    explainFailing run s t w = explainWithin run w.checker.explaining.limit s t w := by
  show (if w.checker.exceeded = true then pure _ else _ : Inquire ρ Reason) w = _
  rw [if_neg (by rw [within]; decide)]

/-- A checker that has hit its limits says so and does nothing else. -/
theorem explainFailing_of_exceeded (cut : w.checker.exceeded = true) :
    explainFailing run s t w = (.limitExceeded s t, w) := by
  show (if w.checker.exceeded = true then pure _ else _ : Inquire ρ Reason) w = _
  rw [if_pos cut]
  rfl

/-- An explanation checks the pair first and explains it only where it does not fit. -/
theorem explain?_apply (s t : Handle) (w : Inquiry ρ) : explain? run s t w
    = if (check run s t w).1.isTrue = true then (none, (check run s t w).2)
      else (some (explainFailing run s t (check run s t w).2).1,
        (explainFailing run s t (check run s t w).2).2) := by
  show (if (check run s t w).1.isTrue = true then pure none else _ : Inquire ρ (Option Reason))
    (check run s t w).2 = _
  split
  · rfl
  · rfl

/-! ## §1. What lasts -/

/-- A property that is kept by resolving, by comparing, and by counting levels. -/
structure Lasts (run : Runner ρ) (P : Inquiry ρ → Prop) : Prop where
  resolve : ∀ h w, P w → P ⟨(Store.resolve run h w.store).2, w.checker⟩
  check : ∀ s t w, P w → P (check run s t w).2
  count : ∀ w explaining, P w → P ⟨w.store, { w.checker with explaining }⟩

namespace Lasts

variable (lasts : Lasts run P)
include lasts

/-- Queries keep what lasts. -/
theorem inquire {α : Type} (q : Query ρ α) (h : P w) : P (inquire run q w).2 :=
  answer_invariant lasts.resolve lasts.check q w h

/-- Counting a level keeps what lasts. -/
theorem counted {describe : Handle → Handle → Inquire ρ Reason}
    (describes : ∀ w, P w → P (describe s t w).2) (h : P w) : P (counted describe s t w).2 := by
  have entered := lasts.count w (w.checker.explaining.enter).2 h
  unfold Inquire.counted
  show P ((if _ = true then _ else _ : Inquire ρ Reason) (update Checker.descend w).2).2
  split
  · exact lasts.count _ _ (describes _ entered)
  · exact entered

/-- One level keeps what lasts, if the levels below it do. -/
theorem describe {explain : Handle → Handle → Inquire ρ Reason}
    (explains : ∀ s t w, P w → P (explain s t w).2) (h : P w) :
    P (describe run explain s t w).2 := by
  have asked := lasts.inquire (Query.blame w.checker.flags s t) h
  rw [describe_apply]
  generalize Assignability.inquire run (Query.blame w.checker.flags s t) w = r at asked
  obtain ⟨blame, w'⟩ := r
  cases blame with
  | reason reason => exact asked
  | part a b around => exact explains a b w' asked
  | endless => exact asked

/-- Explanations keep what lasts, at every number of levels. -/
theorem explainWithin (levels : Nat) : ∀ (s t : Handle) (w : Inquiry ρ), P w →
    P (explainWithin run levels s t w).2 := by
  induction levels with
  | zero => exact fun s t w => lasts.counted fun _ h => h
  | succ levels ih => exact fun s t w => lasts.counted fun _ => lasts.describe ih

/-- To explain a failing pair keeps what lasts. -/
theorem explainFailing (h : P w) : P (explainFailing run s t w).2 := by
  cases cut : w.checker.exceeded with
  | true =>
    rw [explainFailing_of_exceeded cut]
    exact h
  | false =>
    rw [explainFailing_of_within cut]
    exact lasts.explainWithin _ s t w h

/-- **WHAT LASTS THROUGH EACH COMPARISON LASTS THROUGH AN EXPLANATION.** -/
theorem explain? (s t : Handle) (w : Inquiry ρ) (h : P w) : P (explain? run s t w).2 := by
  have checked := lasts.check s t w h
  rw [explain?_apply]
  split
  · exact checked
  · exact lasts.explainFailing checked

end Lasts

/-! ## §2. The path, the limits and the store -/

/-- What was there at the start lasts. -/
theorem lasts_kept (w₀ : Inquiry ρ) : Lasts run (Kept w₀) where
  resolve := fun _ _ h => h.trans ⟨rfl, rfl, rfl, fun _ => rfl, id⟩
  check := fun s t w h => h.trans (kept_check s t w)
  count := fun _ _ h => h.trans ⟨rfl, rfl, rfl, fun _ => rfl, id⟩

/-- A checker that is idle stays so. -/
theorem lasts_isIdle : Lasts run fun w => w.checker.IsIdle where
  resolve := fun _ _ h => h
  check := fun s t _ h => (h.check s t).2
  count := fun _ _ h => ⟨h.depth, h.path, h.assumption⟩

/-- What resolving keeps in a store lasts. -/
theorem lasts_store {I : Store ρ → Prop} (resolved : ∀ h σ, I σ → I (Store.resolve run h σ).2) :
    Lasts run fun w => I w.store where
  resolve := fun h w => resolved h w.store
  check := store_check resolved
  count := fun _ _ h => h

/-- Queries keep what was there. -/
theorem kept_inquire {α : Type} (q : Query ρ α) (w : Inquiry ρ) : Kept w (inquire run q w).2 :=
  (lasts_kept w).inquire q (.refl w)

/-- Giving the reason for a blame keeps what was there. -/
theorem kept_reasonFor {explain : Handle → Handle → Inquire ρ Reason}
    (keeps : ∀ s t w, Kept w (explain s t w).2) (s t : Handle) (blame : Blame) (w : Inquiry ρ) :
    Kept w (reasonFor explain s t blame w).2 := by
  cases blame with
  | reason reason => exact .refl w
  | part a b around => exact keeps a b w
  | endless => exact .refl w

/-- Explanations keep what was there. -/
theorem kept_explainWithin (levels : Nat) (s t : Handle) (w : Inquiry ρ) :
    Kept w (explainWithin run levels s t w).2 :=
  (lasts_kept w).explainWithin levels s t w (.refl w)

/-- To explain a failing pair keeps what was there. -/
theorem kept_explainFailing (s t : Handle) (w : Inquiry ρ) :
    Kept w (explainFailing run s t w).2 := (lasts_kept w).explainFailing (.refl w)

/-- To check and explain keeps what was there. -/
theorem kept_explain? (s t : Handle) (w : Inquiry ρ) : Kept w (explain? run s t w).2 :=
  (lasts_kept w).explain? s t w (.refl w)

/-- What an explanation does once its pair was compared. -/
theorem kept_explain?_of_check (s t : Handle) (w : Inquiry ρ) :
    Kept (check run s t w).2 (explain? run s t w).2 := by
  rw [explain?_apply]
  split
  · exact .refl _
  · exact kept_explainFailing s t _

/-! ## §3. The levels -/

/-- Two checkers that are at the same level of an explanation, under the same limit. -/
def AtLevel (c c' : Checker) : Prop :=
  c'.explaining.depth = c.explaining.depth ∧ c'.explaining.limit = c.explaining.limit

/-- Queries leave the levels of explanations alone. -/
theorem levels_inquire {α : Type} (q : Query ρ α) (w : Inquiry ρ) :
    (inquire run q w).2.checker.explaining = w.checker.explaining :=
  answer_invariant (P := fun w' => w'.checker.explaining = w.checker.explaining)
    (fun _ _ h => h) (fun a b w' h => (explaining_check a b w').trans h) q w rfl

/-- The state in which a level was tried to be entered. -/
def descended (w : Inquiry ρ) : Inquiry ρ := ⟨w.store, w.checker.descend.2⟩

/-- The state in which a level was left. -/
def ascended (w : Inquiry ρ) : Inquiry ρ := ⟨w.store, w.checker.ascend.2⟩

/-- To go up a level leaves the mark of the limits alone. -/
theorem exceeded_ascended (w : Inquiry ρ) :
    (ascended w).checker.exceeded = w.checker.exceeded := rfl

section

variable {describe : Handle → Handle → Inquire ρ Reason}

/-- Below the limit a pair is explained one level down. -/
theorem counted_of_lt (room : w.checker.explaining.depth < w.checker.explaining.limit) :
    counted describe s t w
      = ((describe s t (descended w)).1, ascended (describe s t (descended w)).2) := by
  have entered : w.checker.descend.1 = true := by
    unfold Checker.descend Levels.enter
    rw [if_neg (Nat.not_le.2 room)]
  show (if w.checker.descend.1 = true then _ else _ : Inquire ρ Reason) (descended w) = _
  rw [if_pos entered]
  rfl

/-- Past the last level the limit is the reason. -/
theorem counted_of_le (full : w.checker.explaining.limit ≤ w.checker.explaining.depth) :
    counted describe s t w = (.limitExceeded s t, descended w) := by
  have refused : w.checker.descend.1 = false := by
    unfold Checker.descend Levels.enter
    rw [if_pos full]
  show (if w.checker.descend.1 = true then _ else _ : Inquire ρ Reason) (descended w) = _
  rw [refused]
  rfl

/-- A level is entered where there is room for it. -/
theorem explaining_descended_of_lt
    (room : w.checker.explaining.depth < w.checker.explaining.limit) :
    (descended w).checker.explaining
      = { w.checker.explaining with depth := w.checker.explaining.depth + 1 } := by
  unfold descended Checker.descend Levels.enter
  rw [if_neg (Nat.not_le.2 room)]

/-- What is counted ends at the level where it began. -/
theorem levels_counted (describes : ∀ w, AtLevel w.checker (describe s t w).2.checker)
    (w : Inquiry ρ) : AtLevel w.checker (counted describe s t w).2.checker := by
  rcases Nat.lt_or_ge w.checker.explaining.depth w.checker.explaining.limit with room | full
  · rw [counted_of_lt room]
    obtain ⟨depth, limit⟩ := describes (descended w)
    rw [explaining_descended_of_lt room] at depth limit
    exact ⟨congrArg (· - 1) depth, limit⟩
  · rw [counted_of_le full]
    unfold descended Checker.descend Levels.enter
    rw [if_pos full]
    exact ⟨rfl, rfl⟩

end

/-- Staying at a level twice is staying there. -/
theorem AtLevel.trans {c c' c'' : Checker} (h : AtLevel c c') (h' : AtLevel c' c'') :
    AtLevel c c'' := ⟨h'.1.trans h.1, h'.2.trans h.2⟩

/-- One level ends where it began, if the levels below it do. -/
theorem levels_describe {explain : Handle → Handle → Inquire ρ Reason}
    (levels : ∀ a b w, AtLevel w.checker (explain a b w).2.checker) (s t : Handle)
    (w : Inquiry ρ) : AtLevel w.checker (describe run explain s t w).2.checker := by
  have asked : (inquire run (Query.blame w.checker.flags s t) w).2.checker.explaining
      = w.checker.explaining := levels_inquire _ w
  rw [describe_apply]
  generalize inquire run (Query.blame w.checker.flags s t) w = r at asked
  obtain ⟨blame, w'⟩ := r
  have same : AtLevel w.checker w'.checker :=
    ⟨congrArg Levels.depth asked, congrArg Levels.limit asked⟩
  cases blame with
  | reason reason => exact same
  | part a b around => exact same.trans (levels a b w')
  | endless => exact same

/-- Explanations end at the level where they began. -/
theorem levels_explainWithin (levels : Nat) : ∀ (s t : Handle) (w : Inquiry ρ),
    AtLevel w.checker (explainWithin run levels s t w).2.checker := by
  induction levels with
  | zero => exact fun s t => levels_counted fun _ => ⟨rfl, rfl⟩
  | succ levels ih => exact fun s t => levels_counted (levels_describe ih s t)

/-- A check leaves the levels of explanations alone. -/
theorem levels_check (s t : Handle) (w : Inquiry ρ) :
    AtLevel w.checker (check run s t w).2.checker :=
  ⟨congrArg Levels.depth (explaining_check s t w), congrArg Levels.limit (explaining_check s t w)⟩

/-- **AN EXPLANATION LEAVES ALL LEVELS THAT IT ENTERED.** -/
theorem levels_explain? (s t : Handle) (w : Inquiry ρ) :
    AtLevel w.checker (explain? run s t w).2.checker := by
  have checked : AtLevel w.checker (check run s t w).2.checker := levels_check s t w
  rw [explain?_apply]
  split
  · exact checked
  · generalize (check run s t w).2 = w' at checked
    cases cut : w'.checker.exceeded with
    | true =>
      rw [explainFailing_of_exceeded cut]
      exact checked
    | false =>
      rw [explainFailing_of_within cut]
      exact checked.trans (levels_explainWithin _ s t w')

end Assignability.Inquire
