/-
  Assignability.Relation.Checker
  ──────────────────────────────
  **THE CHECKER.**

  A checker compares pairs by the rules of `Query.step` and answers the
  questions of a rule by comparing in its turn.  It knows the pairs it is
  at work on: a pair that comes back is assumed to hold, so recursive
  descriptors relate where no rule speaks against it.

  Verdicts are kept.  That a pair fails is kept always: assumptions can
  only help it.  That a pair holds is kept once it rests on no assumption
  about a pair further up; so the checker remembers the shallowest depth
  that an assumption has spoken of.

  The walk descends at most as deep as its limit: `check` is defined by
  recursion on the levels that are left.
-/
import Assignability.Relation.Step
import Assignability.Walk.Levels
import Assignability.Walk.Guard

namespace Assignability

/-! ## §1. The state of a checker -/

/-- A source and a target. -/
abbrev Pair := Handle × Handle

/-- What a checker knows. -/
structure Checker where
  flags : Flags
  /-- The pairs that are being compared. -/
  guard : Guard Pair
  /-- The pairs that were decided. -/
  verdicts : Std.HashMap Pair Bool := ∅
  /-- The depth of the shallowest pair that was assumed to hold, if any was, in the comparison
  that is being made. -/
  assumption : Option Nat := none
  /-- The levels of an explanation. -/
  explaining : Levels := { limit := Limits.explaining.depth }

/-- A checker that has compared nothing. -/
def Checker.new (policy : Policy) : Checker where
  flags := policy.flags
  guard := { limits := policy.limits }

/-- Whether a limit was hit. -/
def Checker.exceeded (c : Checker) : Bool := c.guard.exceeded

/-- A checker at work on a store. -/
structure Inquiry (ρ : Type) where
  store : Store ρ
  checker : Checker

/-- A step of a checker's work. -/
abbrev Inquire (ρ : Type) := StateM (Inquiry ρ)

namespace Inquire

variable {ρ α : Type}

/-- A step of building, as part of the work. -/
def build (step : Build ρ α) : Inquire ρ α := fun w =>
  let ⟨store, checker⟩ := w
  let r := step store
  (r.1, ⟨r.2, checker⟩)

/-- A change of the checker alone. -/
def update (f : Checker → α × Checker) : Inquire ρ α := fun w =>
  let ⟨store, checker⟩ := w
  let r := f checker
  (r.1, ⟨store, r.2⟩)

end Inquire

/-! ## §2. Keeping track of a pair -/

/-- The shallower of two depths, where no depth is the deepest. -/
def shallower : Option Nat → Option Nat → Option Nat
  | none, b => b
  | a, none => a
  | some a, some b => some (min a b)

/-- Whether no assumption speaks of a pair above `depth`. -/
def isSelfContained (assumption : Option Nat) (depth : Nat) : Bool :=
  match assumption with
  | none => true
  | some d => depth ≤ d

namespace Checker

/-- Tries to put a pair on the path. -/
def enter (pair : Pair) (c : Checker) : Entry × Checker :=
  let ⟨flags, guard, verdicts, assumption, explaining⟩ := c
  let r := guard.enter pair
  (r.1, ⟨flags, r.2, verdicts, assumption, explaining⟩)

/-- Assumes a pair on the path to hold. -/
def assume (pair : Pair) (c : Checker) : Checker :=
  { c with assumption := shallower c.assumption (some (c.guard.path.getD pair 0)) }

/-- Starts the comparison of a pair that was entered: gives the assumption made so far, which is
put aside. -/
def setAside (c : Checker) : Option Nat × Checker :=
  (c.assumption, { c with assumption := none })

/-- Ends the comparison of a pair with its answer: takes the pair off the path, keeps the verdict
if it is one, and goes on with the assumption `outer` that was put aside. -/
def conclude (pair : Pair) (outer : Option Nat) (a : Answer) (c : Checker) : Answer × Checker :=
  let ⟨flags, guard, verdicts, assumption, explaining⟩ := c
  -- assumptions on this pair, or on one below it, are settled now
  let selfContained := isSelfContained assumption guard.depth
  let a := if selfContained && a == .assumed then .holds else a
  let verdicts :=
    match a with
    | .fails => verdicts.insert pair false
    | .holds => if selfContained then verdicts.insert pair true else verdicts
    | _ => verdicts
  let assumption := if selfContained then outer else shallower outer assumption
  (a, ⟨flags, guard.leave pair, verdicts, assumption, explaining⟩)

end Checker

/-! ## §3. Comparing -/

namespace Inquiry

variable {ρ : Type}

/-- Whether a pair holds, where that is decided at once or a verdict is kept. -/
def known? (w : Inquiry ρ) (s t : Handle) : Option Bool :=
  match w.store.atOnce? w.checker.flags s t with
  | some b => some b
  | none => w.checker.verdicts[(s, t)]?

end Inquiry

section

variable {ρ : Type}

/-- Compares a pair, by `step` where nothing is known and the guard lets it in. -/
def compareWith (step : Flags → Handle → Handle → Inquire ρ Answer) (s t : Handle) :
    Inquire ρ Answer := fun w =>
  match w.known? s t with
  | some b => (.ofBool b, w)
  | none =>
    match Inquire.update (Checker.enter (s, t)) w with
    | (.cycle, w) => Inquire.update (fun c => (.assumed, c.assume (s, t))) w
    | (.tooDeep, w) => (.cutOff, w)
    | (.exhausted, w) => (.cutOff, w)
    | (.entered, w) =>
      -- what was assumed outside is not to weigh on this pair
      let (outer, w) := Inquire.update Checker.setAside w
      let (a, w) := step w.checker.flags s t w
      Inquire.update (Checker.conclude (s, t) outer a) w

variable (run : Runner ρ)

/-- Answers the questions of a query, where `related` compares pairs. -/
def answer {α : Type} (related : Handle → Handle → Inquire ρ Answer) (q : Query ρ α) :
    Inquire ρ α :=
  q.run related (fun h => Inquire.build (Store.resolve run h)) (return (← get).store)

/-- Compares a pair with a number of levels left.  A pair on the last level is refused by the
guard, so what stands below it is of no account. -/
def compareWithin : Nat → Handle → Handle → Inquire ρ Answer
  | 0 => compareWith fun _ _ _ => pure .cutOff
  | levels + 1 => compareWith fun flags s t =>
    answer run (compareWithin levels) (Query.step flags s t)

/-- Compares a pair. -/
def check (s t : Handle) : Inquire ρ Answer := do
  compareWithin run (← get).checker.guard.limits.depth s t

/-- Answers the questions of a query by comparing. -/
def inquire {α : Type} (q : Query ρ α) : Inquire ρ α := answer run (check run) q

/-- Whether a source is assignable to a target. -/
def isRelated (s t : Handle) : Inquire ρ Bool := return (← check run s t).isTrue

end

end Assignability
