/-
  Assignability.Proofs.Checker.Limits
  ───────────────────────────────────
  **RAISING THE LIMITS.**

  A run that hits no limit is the same run under higher limits
  (`check_under`), so its finding is the same and so is the store that it
  leaves behind (`relate_eq_of_within`).  One that hits a limit may come to
  another answer there: what was cut off is looked at, and that takes
  attempts which the rest of the run then lacks.  A pair that was found to
  be related stays so, or the second run reports a limit in its turn
  (`related_of_raised_limits`).

  This needs resolvers that mind their own business, for what was cut off
  may come to one (`unrelated_under_raised_limits`).  It also needs the
  questions about keys to be decided: a limit hit there counts as no
  common key, so less is asked of the pair than should be.
-/
import Assignability.Proofs.Checker.Decided
import Assignability.Proofs.Checker.Equivalence
import Assignability.Proofs.Checker.Finding
import Assignability.Proofs.Checker.Snapshot
import Assignability.Proofs.Store.Listing

namespace Assignability

variable {ρ : Type} {run : Runner ρ}

/-! ## §1. The same run -/

/-- The state with other limits. -/
def Inquiry.under (w : Inquiry ρ) (limits : Limits) : Inquiry ρ :=
  { w with checker := { w.checker with guard := { w.checker.guard with limits } } }

/-- One set of limits is no lower than another. -/
def Limits.Covers (limits low : Limits) : Prop :=
  low.depth ≤ limits.depth ∧ low.attempts ≤ limits.attempts

/-- An attempt that no limit refuses goes the same way under higher limits. -/
theorem Guard.enter_under {κ : Type} [BEq κ] [Hashable κ] {g : Guard κ} {k : κ} {limits : Limits}
    (covers : limits.Covers g.limits) (within : (g.enter k).2.exceeded = false) :
    ({ g with limits } : Guard κ).enter k
      = ((g.enter k).1, { (g.enter k).2 with limits }) := by
  obtain ⟨low, path, depth, attempts, exceeded⟩ := g
  obtain ⟨deep, many⟩ := covers
  unfold enter at within ⊢
  -- where the lower limits refuse, the attempt is not within them
  dsimp only at deep many within ⊢
  by_cases exhausted : low.attempts < min (attempts + 1) lastAttempt
  · rw [if_pos exhausted] at within
    cases within
  · have fresh : ¬ limits.attempts < min (attempts + 1) lastAttempt := by omega
    rw [if_neg exhausted] at within ⊢
    rw [if_neg fresh]
    by_cases onPath : path.contains k = true
    · rw [if_pos onPath, if_pos onPath]
    · rw [if_neg onPath] at within ⊢
      rw [if_neg onPath]
      by_cases full : low.depth ≤ depth
      · rw [if_pos full] at within
        cases within
      · have room : ¬ limits.depth ≤ depth := by omega
        rw [if_neg full, if_neg room]

/-- A pair is concluded in the same way under other limits. -/
theorem conclude_under (p : Pair) (outer : Option Nat) (a : Answer) (w : Inquiry ρ)
    (limits : Limits) :
    Inquire.update (Checker.conclude p outer a) (w.under limits)
      = ((Inquire.update (Checker.conclude p outer a) w).1,
        (Inquire.update (Checker.conclude p outer a) w).2.under limits) := by
  obtain ⟨store, flags, ⟨low, path, depth, attempts, exceeded⟩, verdicts, assumption,
    explaining⟩ := w
  unfold Inquire.update Checker.conclude Inquiry.under Guard.leave
  dsimp only
  cases path.contains p <;> rfl

/-- A query goes the same way where its questions do. -/
theorem answer_under {α : Type} {related related' : Handle → Handle → Inquire ρ Answer}
    {limits : Limits} {w₀ : Inquiry ρ} (keeps : ∀ a b w, Kept w (related a b w).2)
    (same : ∀ a b w, Kept w₀ w → (related a b w).2.checker.exceeded = false →
      related' a b (w.under limits) = ((related a b w).1, (related a b w).2.under limits))
    (q : Query ρ α) : ∀ w, Kept w₀ w → (answer run related q w).2.checker.exceeded = false →
      answer run related' q (w.under limits)
        = ((answer run related q w).1, (answer run related q w).2.under limits) := by
  -- Along the query. The mark of the limits is never taken back, so each question was within them
  -- if the whole was.
  induction q with
  | done a => exact fun _ _ _ => rfl
  | ask s t next ih | askKeys s t next ih =>
    intro w hw within
    have last : Kept (related s t w).2
        (answer run related (next (related s t w).1) (related s t w).2).2 := kept_answer keeps _ _
    have mid := last.within_limits within
    show answer run related' (next (related' s t (w.under limits)).1)
      (related' s t (w.under limits)).2 = _
    rw [same s t w hw mid]
    exact ih _ _ (hw.trans (keeps s t w)) within
  | resolve h next ih =>
    intro w hw within
    have built : Kept w ⟨(Store.resolve run h w.store).2, w.checker⟩ :=
      ⟨rfl, rfl, rfl, fun _ => rfl, id⟩
    exact ih _ _ (hw.trans built) within
  | look next ih => exact fun w hw within => ih w.store w hw within

/-- A comparison that hits no limit goes the same way under higher ones, if its rule does. -/
theorem compareWith_under {step step' : Flags → Handle → Handle → Inquire ρ Answer} {s t : Handle}
    {w : Inquiry ρ} {limits : Limits} (covers : limits.Covers w.checker.guard.limits)
    (keeps : ∀ flags s t w, Kept w (step flags s t w).2)
    (same : ∀ attempts, w.checker.guard.depth < w.checker.guard.limits.depth →
      (step w.checker.flags s t (w.opened (s, t) attempts)).2.checker.exceeded = false →
      step' w.checker.flags s t ((w.opened (s, t) attempts).under limits)
        = ((step w.checker.flags s t (w.opened (s, t) attempts)).1,
          (step w.checker.flags s t (w.opened (s, t) attempts)).2.under limits))
    (within : (compareWith step s t w).2.checker.exceeded = false) :
    compareWith step' s t (w.under limits)
      = ((compareWith step s t w).1, (compareWith step s t w).2.under limits) := by
  have before : w.checker.guard.exceeded = false :=
    (kept_compareWith keeps s t w).within_limits within
  cases hk : w.known? s t with
  | some b =>
    have hk' : (w.under limits).known? s t = some b := hk
    unfold compareWith
    rw [hk, hk']
  | none =>
    have hk' : (w.under limits).known? s t = none := hk
    have entry : Inquire.update (Checker.enter (s, t)) w
        = ((w.checker.guard.enter (s, t)).1,
          ⟨w.store, { w.checker with guard := (w.checker.guard.enter (s, t)).2 }⟩) := rfl
    have entry' : Inquire.update (Checker.enter (s, t)) (w.under limits)
        = ((({ w.checker.guard with limits } : Guard Pair).enter (s, t)).1,
          ⟨w.store, { w.checker with
            guard := (({ w.checker.guard with limits } : Guard Pair).enter (s, t)).2 }⟩) := rfl
    obtain ⟨n, ⟨e, he, hg⟩ | ⟨d, -, hg⟩ | ⟨-, deeper, hg⟩⟩ := w.checker.guard.enter_cases (s, t)
    · -- a refusal is reported in the end, so there was none
      unfold compareWith at within
      rw [hk, entry, hg] at within
      cases e with
      | entered | cycle => cases he
      | tooDeep | exhausted => exact absurd (show true = false from within) (by decide)
    -- a pair that comes back does so under the larger limits as well
    · have hg' := Guard.enter_under covers (k := (s, t)) (by rw [hg]; exact before)
      unfold compareWith
      rw [hk, hk', entry, entry', hg', hg]
      rfl
    · have hg' := Guard.enter_under covers (k := (s, t)) (by rw [hg]; exact before)
      unfold compareWith at within ⊢
      rw [hk, entry, hg] at within
      rw [hk, hk', entry, entry', hg', hg]
      have inner : (step w.checker.flags s t (w.opened (s, t) n)).2.checker.exceeded = false := by
        rw [← exceeded_conclude (s, t) w.checker.assumption
          (step w.checker.flags s t (w.opened (s, t) n)).1]
        exact within
      show Inquire.update (Checker.conclude (s, t) w.checker.assumption
          (step' w.checker.flags s t ((w.opened (s, t) n).under limits)).1)
        (step' w.checker.flags s t ((w.opened (s, t) n).under limits)).2 = _
      rw [same n deeper inner]
      exact conclude_under (s, t) w.checker.assumption _ _ limits

/-- And so it does with the levels that the higher limits leave. -/
theorem compareWithin_under {limits : Limits} (levels : Nat) : ∀ (levels' : Nat) (s t : Handle)
    (w : Inquiry ρ), limits.Covers w.checker.guard.limits →
    w.checker.guard.limits.depth = w.checker.guard.depth + levels →
    limits.depth = w.checker.guard.depth + levels' →
    (compareWithin run levels s t w).2.checker.exceeded = false →
    compareWithin run levels' s t (w.under limits)
      = ((compareWithin run levels s t w).1, (compareWithin run levels s t w).2.under limits) := by
  -- on the levels of the lower limit; the higher one has as many and more
  induction levels with
  | zero =>
    intro levels' s t w covers room _ within
    cases levels' with
    | zero | succ =>
      exact compareWith_under covers (fun _ _ _ w => .refl w)
        (fun _ deeper => absurd deeper (by omega)) within
  | succ levels ih =>
    intro levels' s t w covers room room' within
    obtain ⟨levels', rfl⟩ : ∃ n, levels' = n + 1 := by
      have := covers.1
      exact ⟨levels' - 1, by omega⟩
    refine compareWith_under covers (fun _ _ _ => kept_answer (kept_compareWithin levels) _) ?_
      within
    intro attempts _ inner
    refine answer_under (kept_compareWithin levels) ?_ _ _ (.refl (w.opened (s, t) attempts)) inner
    intro a b w' kept inner'
    have limits' : w'.checker.guard.limits = w.checker.guard.limits := kept.limits
    have depth' : w'.checker.guard.depth = w.checker.guard.depth + 1 := kept.depth
    refine ih levels' a b w' (by rw [limits']; exact covers) ?_ ?_ inner'
    · rw [limits', depth']
      omega
    · rw [depth']
      omega

/-- **A RUN THAT HITS NO LIMIT IS THE SAME RUN UNDER HIGHER LIMITS.** -/
theorem check_under {s t : Handle} {w : Inquiry ρ} {limits : Limits}
    (covers : limits.Covers w.checker.guard.limits) (idle : w.checker.guard.depth = 0)
    (within : (check run s t w).2.checker.exceeded = false) :
    check run s t (w.under limits) = ((check run s t w).1, (check run s t w).2.under limits) :=
  compareWithin_under _ limits.depth s t w covers (by omega) (by omega) within

/-- A question that hits no limit has the same answer under higher limits. -/
theorem holds_under {kind : Question} {s t : Handle} {w : Inquiry ρ} {limits : Limits}
    (covers : limits.Covers w.checker.guard.limits) (idle : w.checker.guard.depth = 0)
    (within : (Store.holds run kind s t w).2.checker.exceeded = false) :
    Store.holds run kind s t (w.under limits)
      = ((Store.holds run kind s t w).1, (Store.holds run kind s t w).2.under limits) := by
  cases kind with
  | assignable =>
    rw [holds_assignable, holds_assignable, check_under covers idle within]
  | identical =>
    rw [holds_identical] at within
    -- the limits were not hit in the second direction, so not in the first
    have first : (check run s t w).2.checker.exceeded = false := by
      split at within
      · exact (kept_check t s _).within_limits within
      · exact within
    have kept : Kept w (check run s t w).2 := kept_check s t w
    rw [holds_identical, holds_identical, check_under covers idle first]
    dsimp only
    split at within
    · next hf =>
      rw [if_pos hf, if_pos hf, check_under (by rw [kept.limits]; exact covers)
        (by rw [kept.depth]; exact idle) within]
    · next hf => rw [if_neg hf, if_neg hf]

/-! ## §2. Findings -/

/-- A new checker is that of a policy with the same flags, but for its limits. -/
theorem new_under {policy policy' : Policy} (flags : policy'.flags = policy.flags) (σ : Store ρ) :
    (⟨σ, .new policy'⟩ : Inquiry ρ) = (⟨σ, .new policy⟩ : Inquiry ρ).under policy'.limits := by
  unfold Checker.new
  rw [flags]
  rfl

/-- **LIMITS SHOW WHERE THEY ARE REPORTED, AND NOWHERE ELSE.**  Where a question was answered and no
limit hit, it has the same finding under higher limits, and it leaves the same store behind, with the
same resolvers carried out. -/
theorem relate_eq_of_within (run : Runner ρ) (σ : Store ρ) (kind : Question) (s t : Handle)
    (policy policy' : Policy) (flags : policy'.flags = policy.flags)
    (covers : policy'.limits.Covers policy.limits)
    (within : (Store.relate run policy kind s t σ).1.exceeded = false) :
    Store.relate run policy' kind s t σ = Store.relate run policy kind s t σ := by
  rw [relate_fst] at within
  have same := holds_under covers rfl within
  rw [← new_under flags] at same
  -- the guard's report is part of what the two runs have in common
  refine Prod.ext ?_ ?_
  · rw [relate_fst, relate_fst, same]
    rfl
  · show (Store.holds run kind s t ⟨σ, .new policy'⟩).2.store
      = (Store.holds run kind s t ⟨σ, .new policy⟩).2.store
    rw [same]
    rfl

/-- Two lists of themselves are equivalent, which takes two levels and three attempts each way; the
resolvers are carried out on the way. -/
theorem relate_unresolvedLists :
    (Store.relate pure { limits := ⟨2, 6⟩ } .identical ⟨13⟩ ⟨15⟩ unresolvedLists.store).1
        = ⟨.identical, true, false⟩ ∧
      Store.relate pure { limits := ⟨100, 1000⟩ } .identical ⟨13⟩ ⟨15⟩ unresolvedLists.store
        = Store.relate pure { limits := ⟨2, 6⟩ } .identical ⟨13⟩ ⟨15⟩ unresolvedLists.store := by
  have low : (Store.relate pure { limits := ⟨2, 6⟩ } .identical ⟨13⟩ ⟨15⟩
      unresolvedLists.store).1 = ⟨.identical, true, false⟩ := by
    rw [relate_eq_finding]
    decide +kernel
  exact ⟨low, relate_eq_of_within pure unresolvedLists.store .identical ⟨13⟩ ⟨15⟩
    { limits := ⟨2, 6⟩ } { limits := ⟨100, 1000⟩ } rfl ⟨by decide, by decide⟩ (by rw [low])⟩

end Assignability
