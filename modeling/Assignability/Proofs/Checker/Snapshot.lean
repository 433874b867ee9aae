/-
  Assignability.Proofs.Checker.Snapshot
  ─────────────────────────────────────
  **THE TABLES OF A CHECKER AS FUNCTIONS.**

  A checker asks its tables only what they hold of a pair.  A snapshot
  keeps that of them and nothing else: the path and the verdicts are
  functions of the pair.  A comparison can be made on snapshots, and it
  goes as the one that it is a snapshot of (`snapshot_compareWithin`):
  nothing depends on how the tables are kept.

  On a store that is written down the comparison of snapshots is a
  computation from beginning to end.

  Main statements: `check_eq_snapshot` and `relate_eq_finding`.
-/
import Assignability.Proofs.Checker.Frame

namespace Assignability

variable {ρ : Type}

/-! ## §1. Snapshots -/

/-- A checker at work on a store, with functions for its tables. -/
structure Snapshot (ρ : Type) where
  store : Store ρ
  flags : Flags
  limits : Limits
  path : Pair → Option Nat
  depth : Nat
  attempts : Nat
  exceeded : Bool
  verdicts : Pair → Option Bool
  assumption : Option Nat

/-- What there is to see of a checker at work. -/
def Inquiry.snapshot (w : Inquiry ρ) : Snapshot ρ where
  store := w.store
  flags := w.checker.flags
  limits := w.checker.guard.limits
  path := fun p => w.checker.guard.path[p]?
  depth := w.checker.guard.depth
  attempts := w.checker.guard.attempts
  exceeded := w.checker.guard.exceeded
  verdicts := fun p => w.checker.verdicts[p]?
  assumption := w.checker.assumption

namespace Snapshot

/-- A checker that has compared nothing. -/
def new (σ : Store ρ) (policy : Policy) : Snapshot ρ where
  store := σ
  flags := policy.flags
  limits := policy.limits
  path := fun _ => none
  depth := 0
  attempts := 0
  exceeded := false
  verdicts := fun _ => none
  assumption := none

/-- Whether a pair holds, where that is decided at once or a verdict is kept. -/
def known? (w : Snapshot ρ) (s t : Handle) : Option Bool :=
  match w.store.atOnce? w.flags s t with
  | some b => some b
  | none => w.verdicts (s, t)

/-- Tries to put a pair on the path. -/
def enter (p : Pair) (w : Snapshot ρ) : Entry × Snapshot ρ :=
  let attempts := min (w.attempts + 1) Guard.lastAttempt
  if w.limits.attempts < attempts then (.exhausted, { w with attempts, exceeded := true })
  else if (w.path p).isSome then (.cycle, { w with attempts })
  else if w.limits.depth ≤ w.depth then (.tooDeep, { w with attempts, exceeded := true })
  else (.entered, { w with
    path := fun q => if p == q then some (w.depth + 1) else w.path q
    depth := w.depth + 1
    attempts })

/-- Ends the comparison of a pair with its answer. -/
def conclude (p : Pair) (outer : Option Nat) (a : Answer) (w : Snapshot ρ) :
    Answer × Snapshot ρ :=
  let selfContained := isSelfContained w.assumption w.depth
  let a := if selfContained && a == .assumed then .holds else a
  (a, { w with
    path := fun q => if p == q then none else w.path q
    depth := if (w.path p).isSome then w.depth - 1 else w.depth
    verdicts :=
      match a with
      | .fails => fun q => if p == q then some false else w.verdicts q
      | .holds =>
        if selfContained then fun q => if p == q then some true else w.verdicts q else w.verdicts
      | _ => w.verdicts
    assumption := if selfContained then outer else shallower outer w.assumption })

/-- Compares a pair, by `step` where nothing is known and no limit stands against it. -/
def compareWith (step : Flags → Handle → Handle → StateM (Snapshot ρ) Answer) (s t : Handle) :
    StateM (Snapshot ρ) Answer := fun w =>
  match w.known? s t with
  | some b => (.ofBool b, w)
  | none =>
    match w.enter (s, t) with
    | (.cycle, w) =>
      (.assumed, { w with assumption := shallower w.assumption (some ((w.path (s, t)).getD 0)) })
    | (.tooDeep, w) => (.cutOff, w)
    | (.exhausted, w) => (.cutOff, w)
    | (.entered, w) =>
      let r := step w.flags s t { w with assumption := none }
      r.2.conclude (s, t) w.assumption r.1

variable (run : Runner ρ)

/-- Resolves a lazy node. -/
def resolve (h : Handle) : StateM (Snapshot ρ) Handle := fun w =>
  ((Store.resolve run h w.store).1, { w with store := (Store.resolve run h w.store).2 })

/-- Answers the questions of a query, where `related` compares pairs. -/
def answer {α : Type} (related : Handle → Handle → StateM (Snapshot ρ) Answer) (q : Query ρ α) :
    StateM (Snapshot ρ) α :=
  q.run related (resolve run) fun w => (w.store, w)

/-- Compares a pair with a number of levels left. -/
def compareWithin : Nat → Handle → Handle → StateM (Snapshot ρ) Answer
  | 0 => compareWith fun _ _ _ => pure .cutOff
  | levels + 1 => compareWith fun flags s t =>
    answer run (compareWithin levels) (Query.step flags s t)

/-- Compares a pair. -/
def check (s t : Handle) : StateM (Snapshot ρ) Answer := fun w =>
  compareWithin run w.limits.depth s t w

/-- Compares pairs one after the other. -/
def after (earlier : List Pair) (w : Snapshot ρ) : Snapshot ρ :=
  earlier.foldl (fun w p => (check run p.1 p.2 w).2) w

/-- Whether a relation holds of a pair. -/
def holds (kind : Question) (s t : Handle) : StateM (Snapshot ρ) Bool := fun w =>
  let r := check run s t w
  if r.1.isTrue && kind == .identical then
    ((check run t s r.2).1.isTrue, (check run t s r.2).2)
  else (r.1.isTrue, r.2)

/-- What comes of a question about a pair. -/
def finding (policy : Policy) (kind : Question) (s t : Handle) (σ : Store ρ) : Finding :=
  let r := holds run kind s t (new σ policy)
  ⟨kind, r.1, r.2.exceeded⟩

end Snapshot

/-! ## §2. One comparison -/

section

variable {run : Runner ρ}

/-- A new checker starts from the new snapshot of its store. -/
theorem snapshot_new (σ : Store ρ) (policy : Policy) :
    (⟨σ, .new policy⟩ : Inquiry ρ).snapshot = .new σ policy := by
  unfold Inquiry.snapshot Checker.new Snapshot.new
  dsimp only
  congr 1
  · funext p
    exact Std.HashMap.getElem?_empty
  · funext p
    exact Std.HashMap.getElem?_empty

/-- A snapshot enters pairs as the checker does. -/
theorem snapshot_enter (p : Pair) (w : Inquiry ρ) :
    w.snapshot.enter p
      = ((Inquire.update (Checker.enter p) w).1,
        (Inquire.update (Checker.enter p) w).2.snapshot) := by
  obtain ⟨store, flags, ⟨limits, path, depth, attempts, exceeded⟩, verdicts, assumption,
    explaining⟩ := w
  unfold Snapshot.enter Inquiry.snapshot Inquire.update Checker.enter Guard.enter
  dsimp only
  -- the tests of the guard one by one
  rw [← Std.HashMap.contains_eq_isSome_getElem?]
  by_cases exhausted : limits.attempts < min (attempts + 1) Guard.lastAttempt
  · rw [if_pos exhausted, if_pos exhausted]
  · rw [if_neg exhausted, if_neg exhausted]
    by_cases onPath : path.contains p = true
    · rw [if_pos onPath, if_pos onPath]
    · rw [if_neg onPath, if_neg onPath]
      by_cases full : limits.depth ≤ depth
      · rw [if_pos full, if_pos full]
      · rw [if_neg full, if_neg full]
        simp only [Std.HashMap.getElem?_insert]

/-- It concludes them as the checker does. -/
theorem snapshot_conclude (p : Pair) (outer : Option Nat) (a : Answer) (w : Inquiry ρ) :
    w.snapshot.conclude p outer a
      = ((Inquire.update (Checker.conclude p outer a) w).1,
        (Inquire.update (Checker.conclude p outer a) w).2.snapshot) := by
  obtain ⟨store, flags, guard, verdicts, assumption, explaining⟩ := w
  obtain ⟨limits, depth, attempts, exceeded⟩ := guard.leave_fields p
  unfold Snapshot.conclude Inquiry.snapshot Inquire.update Checker.conclude
  dsimp only
  rw [limits, depth, attempts, exceeded]
  simp only [Guard.getElem?_path_leave]
  congr 2
  -- the verdict that is kept, if one is
  generalize isSelfContained assumption guard.depth = selfContained
  generalize (if (selfContained && a == .assumed) = true then Answer.holds else a) = b
  cases b with
  | assumed | cutOff => rfl
  | fails =>
    funext q
    exact Std.HashMap.getElem?_insert.symm
  | holds =>
    cases selfContained with
    | false => rfl
    | true =>
      funext q
      exact Std.HashMap.getElem?_insert.symm

/-- A query is answered on snapshots as it is where its questions are. -/
theorem snapshot_answer {α : Type} {related : Handle → Handle → Inquire ρ Answer}
    {related' : Handle → Handle → StateM (Snapshot ρ) Answer}
    (same : ∀ s t w, related' s t w.snapshot = ((related s t w).1, (related s t w).2.snapshot))
    (q : Query ρ α) : ∀ w : Inquiry ρ, Snapshot.answer run related' q w.snapshot
      = ((answer run related q w).1, (answer run related q w).2.snapshot) := by
  induction q with
  | done a => exact fun w => rfl
  | ask s t next ih | askKeys s t next ih =>
    intro w
    show Snapshot.answer run related' (next (related' s t w.snapshot).1)
      (related' s t w.snapshot).2 = _
    rw [same]
    exact ih _ _
  | resolve h next ih => exact fun w => ih _ ⟨(Store.resolve run h w.store).2, w.checker⟩
  | look next ih => exact fun w => ih w.store w

/-- So it compares them as the checker does, if its rule is the same. -/
theorem snapshot_compareWith {step : Flags → Handle → Handle → Inquire ρ Answer}
    {step' : Flags → Handle → Handle → StateM (Snapshot ρ) Answer}
    (same : ∀ flags s t w, step' flags s t w.snapshot
      = ((step flags s t w).1, (step flags s t w).2.snapshot)) (s t : Handle) (w : Inquiry ρ) :
    Snapshot.compareWith step' s t w.snapshot
      = ((compareWith step s t w).1, (compareWith step s t w).2.snapshot) := by
  have known : w.snapshot.known? s t = w.known? s t := rfl
  unfold Snapshot.compareWith compareWith
  rw [known, snapshot_enter]
  cases w.known? s t with
  | some b => rfl
  | none =>
    obtain ⟨e, w'⟩ := Inquire.update (Checker.enter (s, t)) w
    cases e with
    | tooDeep | exhausted => rfl
    -- the depth that is noted is looked up with a default on the one side only
    | cycle =>
      have assumed : w'.checker.guard.path.getD (s, t) 0 = (w'.snapshot.path (s, t)).getD 0 :=
        Std.HashMap.getD_eq_getD_getElem?
      show _ = (Answer.assumed, Inquiry.snapshot ⟨w'.store, w'.checker.assume (s, t)⟩)
      unfold Checker.assume
      rw [assumed]
      rfl
    -- the rule starts without an assumption and is concluded with the one set aside
    | entered =>
      have start : ({ w'.snapshot with assumption := none } : Snapshot ρ)
          = (Inquire.update Checker.setAside w').2.snapshot := rfl
      dsimp only
      rw [start, same, snapshot_conclude]
      rfl

/-- With any number of levels, -/
theorem snapshot_compareWithin (levels : Nat) : ∀ (s t : Handle) (w : Inquiry ρ),
    Snapshot.compareWithin run levels s t w.snapshot
      = ((compareWithin run levels s t w).1, (compareWithin run levels s t w).2.snapshot) := by
  induction levels with
  | zero => exact snapshot_compareWith fun _ _ _ _ => rfl
  | succ levels ih =>
    exact snapshot_compareWith fun flags s t w => snapshot_answer ih (Query.step flags s t) w

/-! ## §3. Comparisons one after the other -/

/-- in a check, -/
theorem snapshot_check (s t : Handle) (w : Inquiry ρ) :
    Snapshot.check run s t w.snapshot
      = ((check run s t w).1, (check run s t w).2.snapshot) :=
  snapshot_compareWithin _ s t w

/-- and after other checks. -/
theorem snapshot_after (earlier : List Pair) : ∀ w : Inquiry ρ,
    Snapshot.after run earlier w.snapshot = (Inquiry.after run earlier w).snapshot := by
  induction earlier with
  | nil => exact fun w => rfl
  | cons p ps ih =>
    intro w
    show Snapshot.after run ps (Snapshot.check run p.1 p.2 w.snapshot).2 = _
    rw [snapshot_check]
    exact ih (check run p.1 p.2 w).2

/-- **A COMPARISON AFTER OTHERS IS WHAT COMES OUT ON SNAPSHOTS.** -/
theorem check_eq_snapshot (run : Runner ρ) (policy : Policy) (σ : Store ρ) (earlier : List Pair)
    (s t : Handle) :
    (check run s t (.after run earlier ⟨σ, .new policy⟩)).1
        = (Snapshot.check run s t (.after run earlier (.new σ policy))).1 ∧
      (check run s t (.after run earlier ⟨σ, .new policy⟩)).2.checker.exceeded
        = (Snapshot.check run s t (.after run earlier (.new σ policy))).2.exceeded := by
  rw [← snapshot_new, snapshot_after, snapshot_check]
  exact ⟨rfl, rfl⟩

/-- Questions are answered from a snapshot as by the checker. -/
theorem snapshot_holds (kind : Question) (s t : Handle) (w : Inquiry ρ) :
    Snapshot.holds run kind s t w.snapshot
      = ((Store.holds run kind s t w).1, (Store.holds run kind s t w).2.snapshot) := by
  unfold Snapshot.holds
  rw [snapshot_check]
  dsimp only
  cases kind with
  | assignable =>
    rw [holds_assignable]
    cases (check run s t w).1.isTrue <;> rfl
  | identical =>
    rw [holds_identical, snapshot_check]
    cases (check run s t w).1.isTrue <;> rfl

/-- **A FINDING IS WHAT COMES OUT ON SNAPSHOTS.** -/
theorem relate_eq_finding (run : Runner ρ) (policy : Policy) (kind : Question) (s t : Handle)
    (σ : Store ρ) :
    (Store.relate run policy kind s t σ).1 = Snapshot.finding run policy kind s t σ := by
  rw [relate_fst]
  unfold Snapshot.finding
  rw [← snapshot_new, snapshot_holds]
  rfl

/-- And so is the store afterwards. -/
theorem relate_snd_eq (run : Runner ρ) (policy : Policy) (kind : Question) (s t : Handle)
    (σ : Store ρ) :
    (Store.relate run policy kind s t σ).2
      = (Snapshot.holds run kind s t (.new σ policy)).2.store := by
  rw [← snapshot_new, snapshot_holds]
  rfl

end

end Assignability
