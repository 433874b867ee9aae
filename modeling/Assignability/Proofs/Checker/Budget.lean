/-
  Assignability.Proofs.Checker.Budget
  ───────────────────────────────────
  **A CHECKER ALWAYS RETURNS, AND KEEPS TO ITS LIMITS.**

  `check` is defined by recursion on the levels that are left.  Here the
  course of a comparison is told without them (`Runs`): a pair is known,
  or refused by the guard, or it is entered and the questions of its rule
  are compared in their turn, as deep as that goes.  A derivation is a
  course that comes to an end, so a comparison returns where there is one.

  No measure of the store bounds a course: resolvers may build at every
  step, and no pair need ever come back.  What ends it is the guard, which
  stands before every question and lets none in past the deepest level.

  Main statements:
    • `runs_compareWithin` — every comparison has a course that ends, and
      the bounded recursion follows it to its end,
    • `Runs.unique` — it has no other,
    • `calls_run_within_limits` — the calls of one checker return, at no
      depth past the limit and with no more entries than the limit on
      attempts admits, if that limit is below the last number the guard
      counts to,
    • `entered_past_last_attempt` — at the last number itself they may
      enter more pairs than that.
-/
import Assignability.Proofs.Checker.Frame
import Assignability.Proofs.Store.Listing

namespace Assignability

variable {ρ : Type} {run : Runner ρ}

/-! ## §1. The course of a comparison -/

/-- An attempt to enter a pair: what became of it, and the depth of the path after it. -/
structure Attempt where
  entry : Entry
  depth : Nat

/-- The number of pairs that were entered in the course of some attempts. -/
def Attempt.entered (attempts : List Attempt) : Nat := attempts.countP (·.entry = .entered)

/-- What a checker is at work on. -/
inductive Work (ρ : Type) where
  /-- The comparison of a pair. -/
  | pair (source target : Handle)
  /-- The questions of a rule. -/
  | rule (query : Query ρ Answer)

variable (run) in
/-- A course of work that ends, with the attempts it makes in their order, its answer and the state
after it.  Nothing bounds how deep it goes but the guard. -/
inductive Runs : Work ρ → Inquiry ρ → List Attempt → Answer → Inquiry ρ → Prop
  | known {s t : Handle} {w : Inquiry ρ} {b : Bool} (h : w.known? s t = some b) :
    Runs (.pair s t) w [] (.ofBool b) w
  | cycle {s t : Handle} {w : Inquiry ρ} {c : Checker} (h : w.known? s t = none)
    (enters : w.checker.enter (s, t) = (.cycle, c)) :
    Runs (.pair s t) w [⟨.cycle, c.guard.depth⟩] .assumed ⟨w.store, c.assume (s, t)⟩
  | refused {s t : Handle} {w : Inquiry ρ} {e : Entry} {c : Checker} (h : w.known? s t = none)
    (enters : w.checker.enter (s, t) = (e, c)) (he : e.isRefused = true) :
    Runs (.pair s t) w [⟨e, c.guard.depth⟩] .cutOff ⟨w.store, c⟩
  | entered {s t : Handle} {w w' : Inquiry ρ} {c : Checker} {attempts : List Attempt} {a : Answer}
    (h : w.known? s t = none) (enters : w.checker.enter (s, t) = (.entered, c))
    (rule : Runs (.rule (Query.step c.flags s t)) ⟨w.store, c.setAside.2⟩ attempts a w') :
    Runs (.pair s t) w (⟨.entered, c.guard.depth⟩ :: attempts)
      (w'.checker.conclude (s, t) c.setAside.1 a).1
      ⟨w'.store, (w'.checker.conclude (s, t) c.setAside.1 a).2⟩
  | done {a : Answer} {w : Inquiry ρ} : Runs (.rule (.done a)) w [] a w
  | ask {s t : Handle} {next : Answer → Query ρ Answer} {w w' w'' : Inquiry ρ}
    {before after : List Attempt} {a b : Answer} (question : Runs (.pair s t) w before a w')
    (rest : Runs (.rule (next a)) w' after b w'') :
    Runs (.rule (.ask s t next)) w (before ++ after) b w''
  | askKeys {s t : Handle} {next : Answer → Query ρ Answer} {w w' w'' : Inquiry ρ}
    {before after : List Attempt} {a b : Answer} (question : Runs (.pair s t) w before a w')
    (rest : Runs (.rule (next a)) w' after b w'') :
    Runs (.rule (.askKeys s t next)) w (before ++ after) b w''
  | resolve {h : Handle} {next : Handle → Query ρ Answer} {w w' : Inquiry ρ}
    {attempts : List Attempt} {a : Answer}
    (rest : Runs (.rule (next (Store.resolve run h w.store).1))
      ⟨(Store.resolve run h w.store).2, w.checker⟩ attempts a w') :
    Runs (.rule (.resolve h next)) w attempts a w'
  | look {next : Store ρ → Query ρ Answer} {w w' : Inquiry ρ} {attempts : List Attempt}
    {a : Answer} (rest : Runs (.rule (next w.store)) w attempts a w') :
    Runs (.rule (.look next)) w attempts a w'

variable (run) in
/-- The courses of pairs that are compared one after the other with one checker. -/
inductive RunsAll : List Pair → Inquiry ρ → List Attempt → List Answer → Inquiry ρ → Prop
  | nil {w : Inquiry ρ} : RunsAll [] w [] [] w
  | cons {p : Pair} {ps : List Pair} {w w' w'' : Inquiry ρ} {before after : List Attempt}
    {a : Answer} {answers : List Answer} (first : Runs run (.pair p.1 p.2) w before a w')
    (rest : RunsAll ps w' after answers w'') :
    RunsAll (p :: ps) w (before ++ after) (a :: answers) w''

/-- A look at the store is no attempt. -/
theorem Runs.looking {next : Store ρ → Query ρ Answer} {w w' : Inquiry ρ} {attempts : List Attempt}
    {a : Answer} (h : Runs run (.rule (next w.store)) w attempts a w') :
    Runs run (.rule (Query.store >>= next)) w attempts a w' :=
  .look h

/-! ## §2. Every course ends -/

/-- Where its questions have courses that end, so has a rule. -/
theorem runs_answer {related : Handle → Handle → Inquire ρ Answer} {w₀ : Inquiry ρ}
    (keeps : ∀ a b w, Kept w (related a b w).2)
    (asked : ∀ s t w, Kept w₀ w →
      ∃ attempts, Runs run (.pair s t) w attempts (related s t w).1 (related s t w).2)
    (q : Query ρ Answer) : ∀ w, Kept w₀ w → ∃ attempts,
      Runs run (.rule q) w attempts (answer run related q w).1 (answer run related q w).2 := by
  -- along the query: the attempts of a question come before those of the rest
  induction q with
  | done a => exact fun w _ => ⟨[], .done⟩
  | ask s t next ih =>
    intro w hw
    obtain ⟨before, question⟩ := asked s t w hw
    obtain ⟨after, rest⟩ := ih (related s t w).1 (related s t w).2 (hw.trans (keeps s t w))
    exact ⟨before ++ after, .ask question rest⟩
  | askKeys s t next ih =>
    intro w hw
    obtain ⟨before, question⟩ := asked s t w hw
    obtain ⟨after, rest⟩ := ih (related s t w).1 (related s t w).2 (hw.trans (keeps s t w))
    exact ⟨before ++ after, .askKeys question rest⟩
  | resolve h next ih =>
    intro w hw
    have built : Kept w ⟨(Store.resolve run h w.store).2, w.checker⟩ :=
      ⟨rfl, rfl, rfl, fun _ => rfl, id⟩
    obtain ⟨attempts, rest⟩ := ih (Store.resolve run h w.store).1
      ⟨(Store.resolve run h w.store).2, w.checker⟩ (hw.trans built)
    exact ⟨attempts, .resolve rest⟩
  | look next ih =>
    intro w hw
    obtain ⟨attempts, rest⟩ := ih w.store w hw
    exact ⟨attempts, .look rest⟩

/-- Where the rule of a pair that is entered has a course that ends, so has the pair. -/
theorem runs_compareWith {step : Flags → Handle → Handle → Inquire ρ Answer} {s t : Handle}
    {w : Inquiry ρ}
    (entered : ∀ attempts, w.checker.guard.depth < w.checker.guard.limits.depth →
      ∃ trace, Runs run (.rule (Query.step w.checker.flags s t)) (w.opened (s, t) attempts) trace
        (step w.checker.flags s t (w.opened (s, t) attempts)).1
        (step w.checker.flags s t (w.opened (s, t) attempts)).2) :
    ∃ trace, Runs run (.pair s t) w trace (compareWith step s t w).1 (compareWith step s t w).2 := by
  cases known : w.known? s t with
  | some b =>
    unfold compareWith
    rw [known]
    exact ⟨[], .known known⟩
  | none =>
    have enters : w.checker.enter (s, t) = ((w.checker.guard.enter (s, t)).1,
        { w.checker with guard := (w.checker.guard.enter (s, t)).2 }) := rfl
    have update : Inquire.update (Checker.enter (s, t)) w
        = ((w.checker.guard.enter (s, t)).1,
          ⟨w.store, { w.checker with guard := (w.checker.guard.enter (s, t)).2 }⟩) := rfl
    -- the three ways of the guard: refused, back on the path, entered
    obtain ⟨n, ⟨e, he, hg⟩ | ⟨d, -, hg⟩ | ⟨-, deeper, hg⟩⟩ := w.checker.guard.enter_cases (s, t)
    · rw [hg] at enters update
      unfold compareWith
      rw [known, update]
      cases e with
      | entered | cycle => cases he
      | tooDeep | exhausted => exact ⟨_, .refused known enters rfl⟩
    · rw [hg] at enters update
      unfold compareWith
      rw [known, update]
      exact ⟨_, .cycle known enters⟩
    · rw [hg] at enters update
      unfold compareWith
      rw [known, update]
      obtain ⟨trace, rule⟩ := entered n deeper
      exact ⟨_, .entered known enters rule⟩

/-- **EVERY COMPARISON HAS A COURSE THAT ENDS**, and the recursion on the levels that are left
follows it: on the last level the guard lets no pair in, so its rule is never asked for. -/
theorem runs_compareWithin (levels : Nat) : ∀ (s t : Handle) (w : Inquiry ρ),
    w.checker.guard.limits.depth = w.checker.guard.depth + levels → ∃ attempts,
      Runs run (.pair s t) w attempts (compareWithin run levels s t w).1
        (compareWithin run levels s t w).2 := by
  induction levels with
  | zero => exact fun s t w room => runs_compareWith fun _ deeper => absurd deeper (by omega)
  | succ levels ih =>
    intro s t w room
    refine runs_compareWith fun attempts _ => ?_
    refine runs_answer (kept_compareWithin levels) (fun a b w' kept => ?_) _ _
      (.refl (w.opened (s, t) attempts))
    refine ih a b w' ?_
    rw [kept.limits, kept.depth]
    show w.checker.guard.limits.depth = w.checker.guard.depth + 1 + levels
    omega

/-- **A COURSE IS THE ONLY ONE.** -/
theorem Runs.unique {work : Work ρ} {w w₁ w₂ : Inquiry ρ} {attempts₁ attempts₂ : List Attempt}
    {a₁ a₂ : Answer} (h₁ : Runs run work w attempts₁ a₁ w₁)
    (h₂ : Runs run work w attempts₂ a₂ w₂) : attempts₁ = attempts₂ ∧ a₁ = a₂ ∧ w₁ = w₂ := by
  -- Each call is matched with its counterpart; two ways of one call exclude each other, because
  -- the guard is a function.
  induction h₁ generalizing attempts₂ a₂ w₂ with
  | known h =>
    cases h₂ with
    | known h' =>
      rw [h] at h'
      cases h'
      exact ⟨rfl, rfl, rfl⟩
    | cycle h' | refused h' | entered h' => rw [h] at h'; cases h'
  | cycle h enters =>
    cases h₂ with
    | known h' => rw [h] at h'; cases h'
    | cycle _ enters' =>
      rw [enters] at enters'
      cases enters'
      exact ⟨rfl, rfl, rfl⟩
    | refused _ enters' he => rw [enters] at enters'; cases enters'; cases he
    | entered _ enters' => rw [enters] at enters'; cases enters'
  | refused h enters he =>
    cases h₂ with
    | known h' => rw [h] at h'; cases h'
    | cycle _ enters' => rw [enters] at enters'; cases enters'; cases he
    | refused _ enters' =>
      rw [enters] at enters'
      cases enters'
      exact ⟨rfl, rfl, rfl⟩
    | entered _ enters' => rw [enters] at enters'; cases enters'; cases he
  | entered h enters _ ih =>
    cases h₂ with
    | known h' => rw [h] at h'; cases h'
    | cycle _ enters' => rw [enters] at enters'; cases enters'
    | refused _ enters' he => rw [enters] at enters'; cases enters'; cases he
    | entered _ enters' rule =>
      rw [enters] at enters'
      cases enters'
      obtain ⟨rfl, rfl, rfl⟩ := ih rule
      exact ⟨rfl, rfl, rfl⟩
  | done =>
    cases h₂
    exact ⟨rfl, rfl, rfl⟩
  | ask _ _ ihQuestion ihRest =>
    cases h₂ with
    | ask question rest =>
      obtain ⟨rfl, rfl, rfl⟩ := ihQuestion question
      obtain ⟨rfl, rfl, rfl⟩ := ihRest rest
      exact ⟨rfl, rfl, rfl⟩
  | askKeys _ _ ihQuestion ihRest =>
    cases h₂ with
    | askKeys question rest =>
      obtain ⟨rfl, rfl, rfl⟩ := ihQuestion question
      obtain ⟨rfl, rfl, rfl⟩ := ihRest rest
      exact ⟨rfl, rfl, rfl⟩
  | resolve _ ih =>
    cases h₂ with
    | resolve rest => exact ih rest
  | look _ ih =>
    cases h₂ with
    | look rest => exact ih rest

/-- So is that of calls one after the other. -/
theorem RunsAll.unique {calls : List Pair} {w w₁ w₂ : Inquiry ρ}
    {attempts₁ attempts₂ : List Attempt} {answers₁ answers₂ : List Answer}
    (h₁ : RunsAll run calls w attempts₁ answers₁ w₁)
    (h₂ : RunsAll run calls w attempts₂ answers₂ w₂) :
    attempts₁ = attempts₂ ∧ answers₁ = answers₂ ∧ w₁ = w₂ := by
  induction h₁ generalizing attempts₂ answers₂ w₂ with
  | nil =>
    cases h₂
    exact ⟨rfl, rfl, rfl⟩
  | cons first _ ih =>
    cases h₂ with
    | cons first' rest =>
      obtain ⟨rfl, rfl, rfl⟩ := first.unique first'
      obtain ⟨rfl, rfl, rfl⟩ := ih rest
      exact ⟨rfl, rfl, rfl⟩

/-- Calls of an idle checker return, one after the other. -/
theorem runsAll_after (calls : List Pair) : ∀ w : Inquiry ρ, w.checker.guard.depth = 0 →
    ∃ attempts answers, RunsAll run calls w attempts answers (.after run calls w) := by
  induction calls with
  | nil => exact fun w _ => ⟨[], [], .nil⟩
  | cons p ps ih =>
    intro w idle
    have kept : Kept w (check run p.1 p.2 w).2 := kept_check p.1 p.2 w
    obtain ⟨before, first⟩ : ∃ attempts, Runs run (.pair p.1 p.2) w attempts
        (check run p.1 p.2 w).1 (check run p.1 p.2 w).2 :=
      runs_compareWithin w.checker.guard.limits.depth p.1 p.2 w (by rw [idle, Nat.zero_add])
    obtain ⟨after, answers, rest⟩ := ih _ (kept.depth.trans idle)
    exact ⟨before ++ after, _ :: answers, .cons first rest⟩

/-! ## §3. What a course keeps to -/

/-- The guard after an attempt that was counted. -/
def Guard.counting {κ : Type} [BEq κ] [Hashable κ] (g : Guard κ) : Guard κ :=
  { g with attempts := min (g.attempts + 1) lastAttempt }

/-- A pair that is not entered leaves all but the count and the report. -/
theorem Checker.of_enter {c c' : Checker} {p : Pair} {e : Entry} (h : c.enter p = (e, c'))
    (he : e ≠ .entered) : c' = { c with guard :=
      { c.guard.counting with exceeded := c.guard.exceeded || e.isRefused } } := by
  obtain ⟨flags, ⟨limits, path, depth, attempts, exceeded⟩, verdicts, assumption, explaining⟩ := c
  unfold enter Guard.enter at h
  dsimp only at h
  split at h
  · cases h
    simp [Guard.counting, Entry.isRefused]
  · split at h
    · cases h
      simp [Guard.counting, Entry.isRefused]
    · split at h
      · cases h
        simp [Guard.counting, Entry.isRefused]
      · cases h
        exact absurd rfl he

/-- A pair that is entered was not on the path, and the limits had room for it. -/
theorem Checker.of_enter_entered {c c' : Checker} {p : Pair} (h : c.enter p = (.entered, c')) :
    c' = { c with guard := { c.guard.counting with
        path := c.guard.path.insert p (c.guard.depth + 1), depth := c.guard.depth + 1 } } ∧
      c.guard.path[p]? = none ∧ c.guard.depth < c.guard.limits.depth ∧
      c.guard.counting.attempts ≤ c.guard.limits.attempts := by
  obtain ⟨flags, ⟨limits, path, depth, attempts, exceeded⟩, verdicts, assumption, explaining⟩ := c
  unfold enter Guard.enter at h
  dsimp only at h
  split at h
  · cases h
  · next fresh =>
    split at h
    · cases h
    · next offPath =>
      split at h
      · cases h
      · next deeper =>
        cases h
        refine ⟨rfl, ?_, Nat.lt_of_not_le deeper, Nat.le_of_not_lt fresh⟩
        rw [Std.HashMap.contains_eq_isSome_getElem?, Option.not_isSome_iff_eq_none] at offPath
        exact offPath

/-- And where they have room for it, it is entered. -/
theorem Checker.enter_of_room {c : Checker} {p : Pair} (offPath : c.guard.path[p]? = none)
    (deeper : c.guard.depth < c.guard.limits.depth)
    (room : c.guard.counting.attempts ≤ c.guard.limits.attempts) :
    c.enter p = (.entered, { c with guard := { c.guard.counting with
      path := c.guard.path.insert p (c.guard.depth + 1), depth := c.guard.depth + 1 } }) := by
  obtain ⟨flags, ⟨limits, path, depth, attempts, exceeded⟩, verdicts, assumption, explaining⟩ := c
  have absent : ¬ path.contains p = true := by
    rw [Std.HashMap.contains_eq_isSome_getElem?, offPath]
    decide
  have fresh : ¬ limits.attempts < min (attempts + 1) Guard.lastAttempt := Nat.not_lt_of_le room
  unfold enter Guard.enter
  dsimp only
  rw [if_neg fresh, if_neg absent, if_neg (Nat.not_le_of_lt deeper)]
  rfl

/-- A course that enters its pair, as the limits have room for it. -/
theorem Runs.opened {s t : Handle} {w w' : Inquiry ρ} {attempts : List Attempt} {a : Answer}
    (unknown : w.known? s t = none) (offPath : w.checker.guard.path[(s, t)]? = none)
    (deeper : w.checker.guard.depth < w.checker.guard.limits.depth)
    (room : w.checker.guard.counting.attempts ≤ w.checker.guard.limits.attempts)
    (rule : Runs run (.rule (Query.step w.checker.flags s t))
      (w.opened (s, t) w.checker.guard.counting.attempts) attempts a w') :
    Runs run (.pair s t) w (⟨.entered, w.checker.guard.depth + 1⟩ :: attempts)
      (Inquire.update (Checker.conclude (s, t) w.checker.assumption a) w').1
      (Inquire.update (Checker.conclude (s, t) w.checker.assumption a) w').2 :=
  .entered unknown (Checker.enter_of_room offPath deeper room) rule

/-- A pair whose rule holds is found to hold, whether or not that is kept. -/
theorem Checker.conclude_holds (p : Pair) (outer : Option Nat) (c : Checker) :
    (c.conclude p outer .holds).1 = .holds := by
  unfold conclude
  dsimp only
  cases isSelfContained c.assumption c.guard.depth <;> rfl

/-- A course leaves flags, limits, depth and path as they were. -/
theorem Runs.kept {work : Work ρ} {w w' : Inquiry ρ} {attempts : List Attempt} {a : Answer}
    (h : Runs run work w attempts a w') : Kept w w' := by
  induction h with
  | known | done => exact .refl _
  | cycle _ enters =>
    obtain rfl := Checker.of_enter enters nofun
    exact ⟨rfl, rfl, rfl, fun _ => rfl, fun he => Bool.or_eq_true_iff.2 (.inl he)⟩
  | @refused _ _ _ e _ _ enters he =>
    obtain rfl := Checker.of_enter enters (by rintro rfl; cases he)
    exact ⟨rfl, rfl, rfl, fun _ => rfl, fun he => Bool.or_eq_true_iff.2 (.inl he)⟩
  | @entered s t _ _ _ _ _ _ enters _ ih =>
    obtain ⟨rfl, offPath, -⟩ := Checker.of_enter_entered enters
    exact kept_conclude (p := (s, t)) ih offPath
  | ask _ _ ihQuestion ihRest | askKeys _ _ ihQuestion ihRest => exact ihQuestion.trans ihRest
  | resolve _ ih => exact ⟨ih.flags, ih.limits, ih.depth, ih.path, ih.exceeded⟩
  | look _ ih => exact ih

/-- A limit was hit before, or at some attempt. -/
theorem Runs.exceeded {work : Work ρ} {w w' : Inquiry ρ} {attempts : List Attempt} {a : Answer}
    (h : Runs run work w attempts a w') : w'.checker.exceeded
      = (w.checker.exceeded || attempts.any (·.entry.isRefused)) := by
  -- along the course: a refusal sets the mark, and nothing takes it back
  induction h with
  | known | done => exact (Bool.or_false _).symm
  | cycle _ enters =>
    obtain rfl := Checker.of_enter enters nofun
    rfl
  | refused _ enters he =>
    obtain rfl := Checker.of_enter enters (by rintro rfl; cases he)
    rw [List.any_cons, List.any_nil, Bool.or_false]
    rfl
  | @entered s t w w' _ attempts a _ enters _ ih =>
    obtain ⟨rfl, -⟩ := Checker.of_enter_entered enters
    have closed : (w'.checker.conclude (s, t) w.checker.assumption a).2.guard.exceeded
        = w'.checker.guard.exceeded := (w'.checker.guard.leave_fields (s, t)).2.2.2
    exact closed.trans ih
  | ask _ _ ihQuestion ihRest | askKeys _ _ ihQuestion ihRest =>
    rw [ihRest, ihQuestion, List.any_append, Bool.or_assoc]
  | resolve _ ih | look _ ih => exact ih

/-- **NO ATTEMPT LEADS DEEPER THAN THE LIMIT.** -/
theorem Runs.depth_le {work : Work ρ} {w w' : Inquiry ρ} {attempts : List Attempt} {a : Answer}
    (h : Runs run work w attempts a w')
    (within : w.checker.guard.depth ≤ w.checker.guard.limits.depth) :
    ∀ x ∈ attempts, x.depth ≤ w.checker.guard.limits.depth := by
  -- a rule is looked at one level down, and its questions all start on that level
  induction h with
  | known | done => exact nofun
  | cycle _ enters =>
    obtain rfl := Checker.of_enter enters nofun
    intro x hx
    obtain rfl := List.mem_singleton.1 hx
    exact within
  | refused _ enters he =>
    obtain rfl := Checker.of_enter enters (by rintro rfl; cases he)
    intro x hx
    obtain rfl := List.mem_singleton.1 hx
    exact within
  | entered _ enters _ ih =>
    obtain ⟨rfl, -, deeper, -⟩ := Checker.of_enter_entered enters
    intro x hx
    rcases List.mem_cons.1 hx with rfl | hx
    · exact deeper
    · exact ih deeper x hx
  | ask question _ ihQuestion ihRest | askKeys question _ ihQuestion ihRest =>
    intro x hx
    rcases List.mem_append.1 hx with hx | hx
    · exact ihQuestion within x hx
    · have kept := question.kept
      rw [← kept.limits]
      exact ihRest (by rw [kept.limits, kept.depth]; exact within) x hx
  | resolve _ ih | look _ ih => exact ih within

/-- How the attempts of a course were counted, from `n` up to `n'`, and what a limit on the count
admitted of them. -/
structure Counted (limit n : Nat) (attempts : List Attempt) (n' : Nat) : Prop where
  total : n' = min (n + attempts.length) Guard.lastAttempt
  /-- Where a pair was entered, the count had not passed the limit. -/
  admitted : Attempt.entered attempts = 0 ∨
    min (n + Attempt.entered attempts) Guard.lastAttempt ≤ limit

/-- No more calls are entered than there are attempts. -/
theorem Attempt.entered_le_length (attempts : List Attempt) : entered attempts ≤ attempts.length :=
  List.countP_le_length

namespace Counted

variable {limit n n' n'' : Nat} {before after : List Attempt} {x : Attempt}

/-- No attempt, no count. -/
theorem nil (le : n ≤ Guard.lastAttempt) : Counted limit n [] n :=
  ⟨(Nat.min_eq_left le).symm, .inl rfl⟩

/-- Counts go on from one course to the next. -/
theorem append (h : Counted limit n before n') (h' : Counted limit n' after n'') :
    Counted limit n (before ++ after) n'' := by
  obtain ⟨rfl, first⟩ := h
  obtain ⟨rfl, second⟩ := h'
  have enough := Attempt.entered_le_length before
  have split : Attempt.entered (before ++ after)
      = Attempt.entered before + Attempt.entered after := List.countP_append
  refine ⟨?_, ?_⟩
  · rw [List.length_append]
    omega
  · rw [split]
    omega

/-- An attempt at which no pair was entered. -/
theorem notEntered (hx : x.entry ≠ .entered) :
    Counted limit n [x] (min (n + 1) Guard.lastAttempt) := by
  refine ⟨rfl, .inl ?_⟩
  unfold Attempt.entered
  simp [hx]

/-- An attempt at which a pair was entered. -/
theorem entered (hx : x.entry = .entered) (le : min (n + 1) Guard.lastAttempt ≤ limit) :
    Counted limit n [x] (min (n + 1) Guard.lastAttempt) := by
  have one : Attempt.entered [x] = 1 := by
    unfold Attempt.entered
    simp [hx]
  refine ⟨rfl, .inr ?_⟩
  rw [one]
  exact le

end Counted

/-- **EVERY ATTEMPT IS COUNTED, AND NONE ENTERS PAST THE LIMIT.** -/
theorem Runs.counted {work : Work ρ} {w w' : Inquiry ρ} {attempts : List Attempt} {a : Answer}
    (h : Runs run work w attempts a w') (le : w.checker.guard.attempts ≤ Guard.lastAttempt) :
    Counted w.checker.guard.limits.attempts w.checker.guard.attempts attempts
      w'.checker.guard.attempts := by
  induction h with
  | known | done => exact .nil le
  | cycle _ enters =>
    obtain rfl := Checker.of_enter enters nofun
    exact .notEntered nofun
  | refused _ enters he =>
    obtain rfl := Checker.of_enter enters (by rintro rfl; cases he)
    exact .notEntered (by rintro rfl; cases he)
  -- the guard admits the call, counts it, and leaving takes nothing back
  | @entered s t w w' _ attempts a _ enters _ ih =>
    obtain ⟨rfl, -, -, admitted⟩ := Checker.of_enter_entered enters
    have inner := ih (Nat.min_le_right ..)
    have closed : (w'.checker.conclude (s, t) w.checker.assumption a).2.guard.attempts
        = w'.checker.guard.attempts := (w'.checker.guard.leave_fields (s, t)).2.2.1
    exact closed ▸ (Counted.entered rfl admitted).append inner
  -- the rest starts from the total that the question leaves
  | ask question _ ihQuestion ihRest | askKeys question _ ihQuestion ihRest =>
    have first := ihQuestion le
    have next := ihRest (by rw [first.total]; exact Nat.min_le_right ..)
    rw [question.kept.limits] at next
    exact first.append next
  | resolve _ ih | look _ ih => exact ih le

/-! ## §4. The calls of one checker -/

/-- Neither of the two limits is passed by calls one after the other. -/
theorem RunsAll.bounds {calls : List Pair} {w w' : Inquiry ρ} {attempts : List Attempt}
    {answers : List Answer} (h : RunsAll run calls w attempts answers w')
    (within : w.checker.guard.depth ≤ w.checker.guard.limits.depth)
    (le : w.checker.guard.attempts ≤ Guard.lastAttempt) :
    (∀ x ∈ attempts, x.depth ≤ w.checker.guard.limits.depth) ∧
      Counted w.checker.guard.limits.attempts w.checker.guard.attempts attempts
        w'.checker.guard.attempts := by
  -- along the calls: each leaves the depth as it was and passes its count on
  induction h with
  | nil => exact ⟨nofun, .nil le⟩
  | cons first _ ih =>
    have kept := first.kept
    have counted := first.counted le
    obtain ⟨deepest, later⟩ := ih (by rw [kept.limits, kept.depth]; exact within)
      (by rw [counted.total]; exact Nat.min_le_right ..)
    rw [kept.limits] at deepest later
    refine ⟨fun x hx => ?_, counted.append later⟩
    rcases List.mem_append.1 hx with hx | hx
    · exact first.depth_le within x hx
    · exact deepest x hx

/-- **THE CALLS OF ONE CHECKER RETURN, WITHIN ITS LIMITS.**  Whatever the store and the resolvers, and
whatever pairs are compared one after the other, there is one course of all of it and it ends, in the
state that the checker comes to.  At no time is the path deeper than the limit, and no more pairs are
entered than the limit on attempts says.

The guard counts in thirty-two bits and stays at the last number: a limit of that number is none, once
so many attempts were made.  This exception is not idle, see `entered_past_last_attempt`. -/
theorem calls_run_within_limits (run : Runner ρ) (σ : Store ρ) (policy : Policy)
    (calls : List Pair) :
    ∃ attempts answers,
      RunsAll run calls ⟨σ, .new policy⟩ attempts answers (.after run calls ⟨σ, .new policy⟩) ∧
      (∀ attempts' answers' w', RunsAll run calls ⟨σ, .new policy⟩ attempts' answers' w' →
        attempts' = attempts ∧ answers' = answers ∧ w' = .after run calls ⟨σ, .new policy⟩) ∧
      (∀ x ∈ attempts, x.depth ≤ policy.limits.depth) ∧
      (Attempt.entered attempts ≤ policy.limits.attempts ∨
        Guard.lastAttempt ≤ policy.limits.attempts ∧ Guard.lastAttempt < attempts.length) := by
  obtain ⟨attempts, answers, (course : RunsAll run calls _ attempts answers _)⟩ :=
    runsAll_after calls ⟨σ, .new policy⟩ rfl
  obtain ⟨deepest, counted⟩ := course.bounds (Nat.zero_le _) (Nat.zero_le _)
  refine ⟨attempts, answers, course, fun _ _ _ other => other.unique course, deepest, ?_⟩
  -- the counter stops at the last number, so past it there is nothing left to compare
  have admitted : Attempt.entered attempts = 0 ∨
      min (0 + Attempt.entered attempts) Guard.lastAttempt ≤ policy.limits.attempts :=
    counted.admitted
  have enough := Attempt.entered_le_length attempts
  omega

/-- Nothing is kept of a pair that was cut off. -/
theorem Checker.conclude_of_cutOff (p : Pair) (outer : Option Nat) (c : Checker) :
    (c.conclude p outer .cutOff).1 = .cutOff ∧ (c.conclude p outer .cutOff).2.verdicts = c.verdicts := by
  have apart : (Answer.cutOff == .assumed) = false := rfl
  unfold conclude
  dsimp only
  rw [apart, Bool.and_false]
  exact ⟨rfl, rfl⟩

/-- Strings and numbers, each in lists of lists. -/
def listsOfLists : Listing Handle where
  nodes := [.array Intrinsic.string.handle, .array ⟨13⟩, .array Intrinsic.number.handle, .array ⟨15⟩]

/-- A checker of these lists between two calls, with room for one level and the last number as its limit
on attempts; it keeps nothing of the calls before. -/
structure KeepsNothing (w : Inquiry Handle) : Prop where
  store : w.store = listsOfLists.store
  flags : w.checker.flags = {}
  limits : w.checker.guard.limits = ⟨1, Guard.lastAttempt⟩
  depth : w.checker.guard.depth = 0
  path : ∀ p : Pair, w.checker.guard.path[p]? = none
  verdicts : ∀ p : Pair, w.checker.verdicts[p]? = none

/-- The rule for two lists asks about their elements, and its answer is the answer to that. -/
theorem runs_rule_lists {s t x y : Handle} {flags : Flags} {w w' : Inquiry ρ}
    {attempts : List Attempt} {a : Answer} (hs : w.store.node? s = some (.array x))
    (ht : w.store.node? t = some (.array y)) (elements : Runs run (.pair x y) w attempts a w') :
    Runs run (.rule (Query.step flags s t)) w attempts a w' := by
  rw [← List.append_nil attempts]
  -- it looks for the two nodes, for members that they do not have, and for their shapes
  refine .looking ?_
  rw [hs, ht]
  exact .looking (.looking (.ask elements .done))

/-- One level down the path is as deep as it may be, so the pair of the elements is refused. -/
theorem KeepsNothing.refuses {w : Inquiry Handle} (h : KeepsNothing w) (n : Nat) :
    ∃ e c, e.isRefused = true ∧ c.verdicts = w.checker.verdicts ∧
      Runs pure (.pair ⟨13⟩ ⟨15⟩) (w.opened (⟨14⟩, ⟨16⟩) n) [⟨e, 1⟩] .cutOff ⟨w.store, c⟩ := by
  -- Inside the outer pair the depth is used up. The pair of the elements is not known and not on
  -- the path, so only a refusal is left.
  let inner := w.opened (⟨14⟩, ⟨16⟩) n
  have unknown : inner.known? ⟨13⟩ ⟨15⟩ = none := by
    have store : inner.store = listsOfLists.store := h.store
    have flags : inner.checker.flags = {} := h.flags
    have fresh : inner.checker.verdicts[((⟨13⟩, ⟨15⟩) : Pair)]? = none := h.verdicts _
    unfold Inquiry.known?
    rw [store, flags, fresh]
    decide +kernel
  have offPath : inner.checker.guard.path[((⟨13⟩, ⟨15⟩) : Pair)]? = none := by
    show (w.checker.guard.path.insert (⟨14⟩, ⟨16⟩) _)[((⟨13⟩, ⟨15⟩) : Pair)]? = none
    rw [Std.HashMap.getElem?_insert, h.path]
    rfl
  have deep : inner.checker.guard.depth = 1 := congrArg (· + 1) h.depth
  have full : ¬ inner.checker.guard.depth < inner.checker.guard.limits.depth := by
    show ¬ _ < w.checker.guard.limits.depth
    rw [deep, h.limits]
    decide
  obtain ⟨m, ⟨e, he, enters⟩ | ⟨d, onPath, -⟩ | ⟨-, deeper, -⟩⟩ :=
    inner.checker.guard.enter_cases (⟨13⟩, ⟨15⟩)
  · let c : Checker := { inner.checker with
      guard := { inner.checker.guard with attempts := m, exceeded := true } }
    have refused : inner.checker.enter (⟨13⟩, ⟨15⟩) = (e, c) := by
      show ((inner.checker.guard.enter _).1, _) = _
      rw [enters]
    refine ⟨e, c, he, rfl, ?_⟩
    rw [← deep]
    exact .refused unknown refused he
  · rw [offPath] at onPath
    cases onPath
  · exact absurd deeper full

/-- A call enters the pair of lists, and keeps nothing of it. -/
theorem KeepsNothing.call {w : Inquiry Handle} (h : KeepsNothing w) :
    ∃ e w', e.isRefused = true ∧
      Runs pure (.pair ⟨14⟩ ⟨16⟩) w [⟨.entered, 1⟩, ⟨e, 1⟩] .cutOff w' ∧ KeepsNothing w' := by
  -- the call is entered since nothing was kept of the earlier ones
  have unknown : w.known? ⟨14⟩ ⟨16⟩ = none := by
    unfold Inquiry.known?
    rw [h.store, h.flags, h.verdicts]
    decide +kernel
  have node : w.store.node? ⟨14⟩ = some (.array ⟨13⟩) := by
    rw [h.store]
    decide +kernel
  have node' : w.store.node? ⟨16⟩ = some (.array ⟨15⟩) := by
    rw [h.store]
    decide +kernel
  obtain ⟨e, c, he, kept, elements⟩ := h.refuses w.checker.guard.counting.attempts
  obtain ⟨answer, same⟩ :=
    Checker.conclude_of_cutOff (⟨14⟩, ⟨16⟩) w.checker.assumption c
  let w' : Inquiry Handle :=
    ⟨w.store, (c.conclude (⟨14⟩, ⟨16⟩) w.checker.assumption .cutOff).2⟩
  have course : Runs pure (.pair ⟨14⟩ ⟨16⟩) w [⟨.entered, 1⟩, ⟨e, 1⟩] .cutOff w' := by
    have opened : Runs pure (.pair ⟨14⟩ ⟨16⟩) w _
        (c.conclude (⟨14⟩, ⟨16⟩) w.checker.assumption .cutOff).1 w' :=
      Runs.opened unknown (h.path _) (by rw [h.limits, h.depth]; decide)
        (by rw [h.limits]; exact Nat.min_le_right ..) (runs_rule_lists node node' elements)
    rw [answer, h.depth] at opened
    exact opened
  have still := course.kept
  -- and it keeps nothing itself: what was cut off is no verdict
  refine ⟨e, w', he, course, h.store, still.flags.trans h.flags, still.limits.trans h.limits,
    still.depth.trans h.depth, fun p => (still.path p).trans (h.path p), fun p => ?_⟩
  show (c.conclude (⟨14⟩, ⟨16⟩) w.checker.assumption .cutOff).2.verdicts[p]? = none
  rw [same, kept]
  exact h.verdicts p

/-- So any number of calls enter it as often. -/
theorem KeepsNothing.calls (n : Nat) : ∀ {w : Inquiry Handle}, KeepsNothing w →
    ∃ attempts answers w', RunsAll pure (List.replicate n (⟨14⟩, ⟨16⟩)) w attempts answers w' ∧
      Attempt.entered attempts = n := by
  -- each call enters once and keeps nothing, so the next one enters as well
  induction n with
  | zero => exact fun {w} _ => ⟨[], [], w, .nil, rfl⟩
  | succ n ih =>
    intro w h
    obtain ⟨e, w₁, he, first, h₁⟩ := h.call
    obtain ⟨attempts, answers, w₂, rest, count⟩ := ih h₁
    refine ⟨_, _, w₂, .cons first rest, ?_⟩
    have once : Attempt.entered [⟨.entered, 1⟩, ⟨e, 1⟩] = 1 := by
      cases e with
      | entered | cycle => cases he
      | tooDeep | exhausted => rfl
    have split : Attempt.entered ([⟨.entered, 1⟩, ⟨e, 1⟩] ++ attempts)
        = Attempt.entered [⟨.entered, 1⟩, ⟨e, 1⟩] + Attempt.entered attempts := List.countP_append
    rw [split, once, count, Nat.add_comm]

/-- A limit of the last number is none: calls may enter more pairs than that. -/
theorem entered_past_last_attempt :
    ∃ attempts answers w', RunsAll pure (List.replicate (Guard.lastAttempt + 1) (⟨14⟩, ⟨16⟩))
        ⟨listsOfLists.store, .new { limits := ⟨1, Guard.lastAttempt⟩ }⟩ attempts answers w' ∧
      Guard.lastAttempt < Attempt.entered attempts := by
  have fresh : KeepsNothing ⟨listsOfLists.store, .new { limits := ⟨1, Guard.lastAttempt⟩ }⟩ :=
    ⟨rfl, rfl, rfl, rfl, fun _ => Std.HashMap.getElem?_empty, fun _ => Std.HashMap.getElem?_empty⟩
  obtain ⟨attempts, answers, w', course, count⟩ := fresh.calls (Guard.lastAttempt + 1)
  exact ⟨attempts, answers, w', course, by rw [count]; exact Nat.lt_succ_self _⟩

end Assignability
