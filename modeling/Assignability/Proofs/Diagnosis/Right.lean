/-
  Assignability.Proofs.Diagnosis.Right
  ────────────────────────────────────
  **EXPLANATIONS ARE OF THE LARGEST RELATION.**

  Of a pair at rest an idle checker that hits no limit answers every
  question by the largest relation, whatever it compared before.  What is
  to blame is then what the relation says it is, and so the explanation
  depends on the pair alone: it is `View.reason?`.

  A checker that hit a limit at some time takes every pair that fails for
  one that was cut off (`explain?_of_exceeded`).

  Main statement: `Ready.explain?`.
-/
import Assignability.Proofs.Checker.Finding
import Assignability.Proofs.Diagnosis.Frame
import Assignability.Proofs.Diagnosis.Scope

namespace Assignability

variable {ρ α : Type} {run : Runner ρ} {v : View ρ} {s t : Handle} {w : Inquiry ρ} {levels : Nat}

/-! ## §1. Reasons by the largest relation -/

/-- The reason that a blame gives, with `explain` for a part. -/
def Blame.toReason (explain : Handle → Handle → Reason) (s t : Handle) : Blame → Reason
  | .reason r => r
  | .part a b around => around (explain a b)
  | .endless => .mismatch s t

namespace View

/-- What is to blame for a pair by the largest relation. -/
noncomputable def blame (v : View ρ) (s t : Handle) : Blame :=
  (Query.blame v.flags s t).eval v v.fits v.fits

/-- What is to blame is found by the brands of two nodes or by another rule. -/
theorem ordinary_or_brandBlame (v : View ρ) (s t : Handle) :
    (v.blame s t).Ordinary (v.scope s t) ∨ v.store.BrandBlame (v.stands s) (v.stands t) (v.blame s t) :=
  (Query.scoped_blame v v.flags s t).eval v.fits v.fits

/-- A part that is to blame is one of the two sides. -/
theorem poses_of_blame {a b : Handle} {around : Reason → Reason}
    (h : v.blame s t = .part a b around) : v.Poses s t a b := by
  have found := v.ordinary_or_brandBlame s t
  rw [h] at found
  rcases found with ⟨poses, -⟩ | brands
  · exact poses
  · exact (View.poses_of_brandBlame brands).of_stands

/-- Why a pair fails, with a number of levels left. -/
noncomputable def reasonWithin (v : View ρ) : Nat → Handle → Handle → Reason
  | 0, s, t => .limitExceeded s t
  | levels + 1, s, t => (v.blame s t).toReason (v.reasonWithin levels) s t

/-- Why a pair fails, unless it fits. -/
noncomputable def reason? (v : View ρ) (levels : Nat) (s t : Handle) : Option Reason :=
  if v.fits s t then none else some (v.reasonWithin levels s t)

end View

/-! ## §2. A checker that answers by it -/

/-- An idle checker at work on a store, whose verdicts are right. -/
structure Ready (v : View ρ) (w : Inquiry ρ) : Prop where
  idle : Idle v w
  isIdle : w.checker.IsIdle
  exact : Exact v w

/-- A new checker is ready for every view of its store. -/
theorem ready_new (run : Runner ρ) (σ : Store ρ) (policy : Policy) :
    Ready (.of run σ policy.flags) ⟨σ, .new policy⟩ :=
  ⟨idle_new run σ policy, Checker.isIdle_new policy, exact_new⟩

namespace Ready

/-- The levels of explanations do not matter for that. -/
theorem count (h : Ready v w) (explaining : Levels) :
    Ready v ⟨w.store, { w.checker with explaining }⟩ where
  idle := ⟨h.idle.store, h.idle.flags, h.idle.depth, h.idle.path⟩
  isIdle := ⟨h.isIdle.depth, h.isIdle.path, h.isIdle.assumption⟩
  exact := h.exact

/-- Without a limit the answer to a pair is a verdict on it. -/
theorem check (h : Ready v w) (hs : v.Tame run s) (ht : v.Tame run t)
    (within : (check run s t w).2.checker.exceeded = false) :
    (Assignability.check run s t w).1 = .ofBool (v.fits s t) ∧
      Ready v (Assignability.check run s t w).2 := by
  have ends := h.idle.ends hs ht
  have checked := h.idle.checked h.exact hs ht (ends.decided (.inr within))
  have outermost : (Assignability.check run s t w).1 ≠ .assumed ∧
      (Assignability.check run s t w).2.checker.IsIdle := h.isIdle.check s t
  refine ⟨?_, h.idle.next hs ht, outermost.2, checked.exact⟩
  -- held and failed are exact; assumed needs something on the path, cut off a limit
  cases ha : (Assignability.check run s t w).1 with
  | holds =>
    have fits : v.fits s t = true := View.fits_eq_true.2 (checked.sound (by rw [ha]; rfl))
    rw [fits]
    rfl
  | fails =>
    have apart : ¬ v.fits s t = true := fun fits =>
      checked.complete (by rw [ha]; rfl) within (View.fits_eq_true.1 fits)
    rw [Bool.not_eq_true] at apart
    rw [apart]
    rfl
  | assumed => exact absurd ha outermost.1
  | cutOff =>
    rw [ends.cut ha] at within
    cases within

/-- And so a query comes to its value, if all that it asks about and follows is at rest. -/
theorem inquire {c : Query.Scope} {good : α → Prop} {q : Query ρ α} (hq : q.Scoped (.of v c) good)
    (tame : ∀ a b, c.asks a b ∨ c.keys a b → v.Tame run a ∧ v.Tame run b)
    (settled : ∀ h, c.follows h → Store.resolve run h v.store = (v.stands h, v.store)) :
    ∀ w, Ready v w → (inquire run q w).2.checker.exceeded = false →
      (Assignability.inquire run q w).1 = q.eval v v.fits v.fits ∧
        Ready v (Assignability.inquire run q w).2 := by
  -- Along the query in its scope. Each check leaves the checker ready, and within the limits it
  -- answers as the view evaluates.
  induction hq with
  | done _ => exact fun w h _ => ⟨rfl, h⟩
  | @ask a b next hc _ ih | @askKeys a b next hc _ ih =>
    intro w h within
    have mid := (Inquire.kept_inquire (next (Assignability.check run a b w).1)
      (Assignability.check run a b w).2).within_limits within
    obtain ⟨ha, hb⟩ := tame a b (by first | exact .inl hc | exact .inr hc)
    obtain ⟨answer, ready⟩ := h.check ha hb mid
    have goesOn : ∀ c, Assignability.inquire run (next (Assignability.check run a b w).1) c
        = Assignability.inquire run (next (.ofBool (v.fits a b))) c := fun c => by rw [answer]
    change (Assignability.inquire run (next (Assignability.check run a b w).1) _).2.checker.exceeded
      = false at within
    show (Assignability.inquire run (next (Assignability.check run a b w).1) _).1 = _ ∧
      Ready v (Assignability.inquire run (next (Assignability.check run a b w).1) _).2
    rw [goesOn] at within ⊢
    exact ih _ _ ready within
  -- nothing in the scope builds when it is resolved
  | @resolve g next hc _ ih =>
    intro w h within
    have fixed : Store.resolve run g w.store = (v.stands g, v.store) := by
      rw [h.idle.store]
      exact settled g hc
    change (Assignability.inquire run (next (Store.resolve run g w.store).1)
      ⟨(Store.resolve run g w.store).2, w.checker⟩).2.checker.exceeded = false at within
    show (Assignability.inquire run (next (Store.resolve run g w.store).1)
        ⟨(Store.resolve run g w.store).2, w.checker⟩).1 = _ ∧
      Ready v (Assignability.inquire run (next (Store.resolve run g w.store).1)
        ⟨(Store.resolve run g w.store).2, w.checker⟩).2
    rw [fixed] at within ⊢
    exact ih _ rfl _ ⟨⟨rfl, h.idle.flags, h.idle.depth, h.idle.path⟩, h.isIdle, h.exact⟩ within
  | @look next _ ih =>
    intro w h within
    change (Assignability.inquire run (next w.store) w).2.checker.exceeded = false at within
    show (Assignability.inquire run (next w.store) w).1 = _ ∧
      Ready v (Assignability.inquire run (next w.store) w).2
    rw [h.idle.store] at within ⊢
    exact ih _ rfl w h within

/-- The blame for a pair at rest is laid as the relation has it. -/
theorem inquire_blame (h : Ready v w) (hs : v.Tame run s) (ht : v.Tame run t)
    (within : (Assignability.inquire run (Query.blame w.checker.flags s t) w).2.checker.exceeded
      = false) :
    (Assignability.inquire run (Query.blame w.checker.flags s t) w).1 = v.blame s t ∧
      Ready v (Assignability.inquire run (Query.blame w.checker.flags s t) w).2 := by
  rw [h.idle.flags] at within ⊢
  refine Ready.inquire (Query.scoped_blame v v.flags s t) (fun a b hab => ?_) (fun g hg => ?_) w h
    within
  · have poses : v.Poses s t a b := hab.elim id View.PosesKeys.poses
    exact poses.tame hs ht
  · rcases hg with hg | hg
    · exact hs.settled g hg
    · exact ht.settled g hg

/-- What is to blame is so by the relation, and its part is explained one level down. -/
theorem describe {explain : Handle → Handle → Inquire ρ Reason}
    (keeps : ∀ a b w, Kept w (explain a b w).2)
    (explains : ∀ a b w', w'.checker.explaining = w.checker.explaining → Ready v w' →
      v.Tame run a → v.Tame run b → (explain a b w').2.checker.exceeded = false →
      (explain a b w').1 = v.reasonWithin levels a b ∧ Ready v (explain a b w').2)
    (h : Ready v w) (hs : v.Tame run s) (ht : v.Tame run t)
    (within : (Inquire.describe run explain s t w).2.checker.exceeded = false) :
    (Inquire.describe run explain s t w).1 = v.reasonWithin (levels + 1) s t ∧
      Ready v (Inquire.describe run explain s t w).2 := by
  have level : (Assignability.inquire run (Query.blame w.checker.flags s t) w).2.checker.explaining
      = w.checker.explaining := Inquire.levels_inquire _ w
  rw [Inquire.describe_apply] at within ⊢
  -- the limits were not hit below, so not while the blame was looked for
  have mid := (Inquire.kept_reasonFor keeps s t _ _).within_limits within
  obtain ⟨blame, ready⟩ := h.inquire_blame hs ht mid
  unfold View.reasonWithin
  rw [blame] at within ⊢
  cases hb : v.blame s t with
  | reason r => exact ⟨rfl, ready⟩
  | part a b around =>
    rw [hb] at within
    obtain ⟨ha, hb⟩ := (View.poses_of_blame hb).tame hs ht
    obtain ⟨reason, ready'⟩ := explains a b _ level ready ha hb within
    exact ⟨congrArg around reason, ready'⟩
  | endless => exact ⟨rfl, ready⟩

/-- The reason for a pair is that of the relation, level by level. -/
theorem explainWithin (levels : Nat) : ∀ (s t : Handle) (w : Inquiry ρ), Ready v w →
    v.Tame run s → v.Tame run t →
    w.checker.explaining.depth + levels = w.checker.explaining.limit →
    (Inquire.explainWithin run levels s t w).2.checker.exceeded = false →
    (Inquire.explainWithin run levels s t w).1 = v.reasonWithin levels s t ∧
      Ready v (Inquire.explainWithin run levels s t w).2 := by
  -- on the levels that are left; the depth of the checker counts them from the other end
  induction levels with
  | zero =>
    intro s t w h _ _ room _
    unfold Inquire.explainWithin
    rw [Inquire.counted_of_le (by omega)]
    exact ⟨rfl, h.count _⟩
  | succ levels ih =>
    intro s t w h hs ht room within
    have deeper : w.checker.explaining.depth < w.checker.explaining.limit := by omega
    unfold Inquire.explainWithin at within ⊢
    rw [Inquire.counted_of_lt deeper] at within ⊢
    dsimp only at within ⊢
    rw [Inquire.exceeded_ascended] at within
    have level := Inquire.explaining_descended_of_lt deeper
    have below : Ready v (Inquire.descended w) := h.count _
    generalize Inquire.descended w = w₁ at level below within ⊢
    -- a part is explained one level lower, where the induction speaks of it
    have part : ∀ a b w', w'.checker.explaining = w₁.checker.explaining → Ready v w' →
        v.Tame run a → v.Tame run b →
        (Inquire.explainWithin run levels a b w').2.checker.exceeded = false →
        (Inquire.explainWithin run levels a b w').1 = v.reasonWithin levels a b ∧
          Ready v (Inquire.explainWithin run levels a b w').2 := by
      intro a b w' same ready ha hb
      refine ih a b w' ready ha hb ?_
      rw [same, level]
      dsimp only
      omega
    obtain ⟨reason, ready⟩ :=
      below.describe (Inquire.kept_explainWithin levels) part hs ht within
    exact ⟨reason, ready.count _⟩

/-- **AN EXPLANATION DEPENDS ON THE PAIR ALONE.**  Whatever an idle checker compared before, where it
hits no limit its explanation of a pair at rest is that of the largest relation. -/
theorem explain? (h : Ready v w) (hs : v.Tame run s) (ht : v.Tame run t)
    (top : w.checker.explaining.depth = 0)
    (within : (Inquire.explain? run s t w).2.checker.exceeded = false) :
    (Inquire.explain? run s t w).1 = v.reason? w.checker.explaining.limit s t ∧
      Ready v (Inquire.explain? run s t w).2 := by
  rw [Inquire.explain?_apply] at within ⊢
  have level : (Assignability.check run s t w).2.checker.explaining = w.checker.explaining :=
    explaining_check s t w
  -- a pair that fits needs no reason; for any other the levels are all there
  by_cases related : (Assignability.check run s t w).1.isTrue = true
  · rw [if_pos related] at within ⊢
    obtain ⟨answer, ready⟩ := h.check hs ht within
    rw [answer, Answer.isTrue_ofBool] at related
    unfold View.reason?
    rw [related]
    exact ⟨rfl, ready⟩
  · rw [if_neg related] at within ⊢
    have mid := (Inquire.kept_explainFailing s t _).within_limits within
    obtain ⟨answer, ready⟩ := h.check hs ht mid
    rw [answer, Answer.isTrue_ofBool] at related
    rw [Inquire.explainFailing_of_within mid, level] at within ⊢
    obtain ⟨reason, ready'⟩ :=
      ready.explainWithin _ s t _ hs ht (by rw [level]; omega) within
    unfold View.reason?
    rw [if_neg related]
    exact ⟨congrArg some reason, ready'⟩

end Ready

/-- A checker that hit a limit before has no other reason for a pair that fails. -/
theorem Inquire.explain?_of_exceeded (cut : w.checker.exceeded = true) :
    (Inquire.explain? run s t w).1 = none ∨
      (Inquire.explain? run s t w).1 = some (.limitExceeded s t) := by
  rw [explain?_apply]
  split
  · exact .inl rfl
  · rw [explainFailing_of_exceeded ((kept_check s t w).exceeded cut)]
    exact .inr rfl

end Assignability
