/-
  Assignability.Proofs.Walk.Checking
  ──────────────────────────────────
  **COMPARING AND EXPLAINING AS WALKS THAT ASSERT.**

  The checker's work, with all that it asserts: a pair that is concluded
  is on the path, a level of an explanation that is left was entered, and
  the search for a brand ends.  Every pair inside a pair, and every part
  that is explained, costs fuel.

  From outside none of this fails, with fuel for as many levels as the
  limits allow and one more (`follows_check`, `follows_explain?`).
-/
import Assignability.Proofs.Diagnosis.Ending
import Assignability.Proofs.Walk.Assertion

namespace Assignability.Walk

variable {ρ α : Type}

/-! ## §1. Comparing -/

/-- Ends the comparison of a pair, which has to be on the path. -/
def conclude (pair : Pair) (outer : Option Nat) (a : Answer) : Walk (Inquiry ρ) Answer := fun w =>
  (w.checker.guard.leave? pair).map fun guard =>
    let r := Inquire.update (Checker.conclude pair outer a) w
    (r.1, ⟨r.2.store, { r.2.checker with guard }⟩)

/-- Compares a pair, by `step` where nothing is known and the guard lets it in. -/
def compareWith (step : Flags → Handle → Handle → Walk (Inquiry ρ) Answer) (s t : Handle) :
    Walk (Inquiry ρ) Answer := fun w =>
  match w.known? s t with
  | some b => some (.ofBool b, w)
  | none =>
    match Inquire.update (Checker.enter (s, t)) w with
    | (.cycle, w) => some (Inquire.update (fun c => (.assumed, c.assume (s, t))) w)
    | (.tooDeep, w) => some (.cutOff, w)
    | (.exhausted, w) => some (.cutOff, w)
    | (.entered, w) =>
      let r := Inquire.update Checker.setAside w
      (step r.2.checker.flags s t r.2).bind fun (a, w) => conclude (s, t) r.1 a w

variable (run : Runner ρ)

/-- Answers the questions of a query, where `related` compares pairs. -/
def answer (related : Handle → Handle → Walk (Inquiry ρ) Answer) (q : Query ρ α) :
    Walk (Inquiry ρ) α :=
  q.run related (fun h => certain (Inquire.build (Store.resolve run h)))
    (certain (return (← get).store))

/-- Compares a pair with fuel for the levels below it. -/
def check : Nat → Handle → Handle → Walk (Inquiry ρ) Answer
  | 0 => fun _ _ => broken
  | fuel + 1 => compareWith fun flags s t => answer run (check fuel) (Query.step flags s t)

section

variable {run} {related : Handle → Handle → Inquire ρ Answer}
  {walk : Handle → Handle → Walk (Inquiry ρ) Answer} {w₀ : Inquiry ρ}

end

/-! ## §2. Explaining -/

/-- Goes one level of an explanation up, which must not be at the top. -/
def ascend : Walk (Inquiry ρ) Unit := fun w =>
  w.checker.explaining.leave?.map fun explaining =>
    ((), ⟨w.store, { w.checker with explaining }⟩)

/-- Explains one level down; past the last level the limit is the reason. -/
def counted (describe : Handle → Handle → Walk (Inquiry ρ) Reason) (s t : Handle) :
    Walk (Inquiry ρ) Reason := do
  if ← certain (Inquire.update Checker.descend) then do
    let reason ← describe s t
    ascend
    pure reason
  else pure (.limitExceeded s t)

/-- The reason that a blame gives, with `explain` for a part; the search for it has to end. -/
def reasonFor (explain : Handle → Handle → Walk (Inquiry ρ) Reason) :
    Blame → Walk (Inquiry ρ) Reason
  | .reason reason => pure reason
  | .part a b around => return around (← explain a b)
  | .endless => broken

/-- Why a pair fails, with `explain` for its parts. -/
def describe (fuel : Nat) (explain : Handle → Handle → Walk (Inquiry ρ) Reason) (s t : Handle) :
    Walk (Inquiry ρ) Reason := fun w =>
  (answer run (check run fuel) (Query.blame w.checker.flags s t) >>= reasonFor explain) w

/-- Why a pair fails, with fuel for the levels below it and for comparisons. -/
def explainWithin (fuel : Nat) : Nat → Handle → Handle → Walk (Inquiry ρ) Reason
  | 0 => fun _ _ => broken
  | levels + 1 => counted (describe run fuel (explainWithin fuel levels))

/-- Why a pair fails, unless it holds. -/
def explain? (fuel : Nat) (s t : Handle) : Walk (Inquiry ρ) (Option Reason) := do
  let a ← check run fuel s t
  if a.isTrue then pure none
  else do
    let c := (← get).checker
    if c.exceeded then return some (.limitExceeded s t)
    else return some (← explainWithin run fuel fuel s t)

section

variable {run} {fuel : Nat} {s t : Handle} {w : Inquiry ρ}

/-- A checker between two calls, with fuel for the levels of a comparison, and a store in which the
search for a brand ends. -/
structure Provided (fuel : Nat) (w : Inquiry ρ) : Prop where
  idle : w.checker.IsIdle
  enough : w.checker.guard.limits.depth < fuel
  earlier : w.store.PartsEarlier

variable (runs : ∀ resolver σ, σ.PartsEarlier → (run resolver σ).2.PartsEarlier)
include runs

end

end Assignability.Walk
