/-
  Assignability.Proofs.Query.Eval
  ───────────────────────────────
  **QUERIES WITH ALL THEIR QUESTIONS ANSWERED.**

  A query says nothing of who answers it.  The checker answers with a
  memory of its own; here a fixed relation answers instead, from a store
  at rest, so a query has a value and no history (`Query.eval`).  The
  questions about keys have a relation to themselves.

  The truth of joined queries is the truth of their parts:
    • `isTrue_eval_andThen`, `isTrue_eval_every` — all of them,
    • `isTrue_eval_any` — one of them.
-/
import Assignability.Relation.Step

namespace Assignability

/-! ## §1. A store at rest -/

/-- What the comparison of a pair can see while no resolver runs: the descriptors, what the lazy
nodes among them stand for, and how strict it is to be. -/
structure View (ρ : Type) where
  store : Store ρ
  stands : Handle → Handle
  flags : Flags
  /-- Only lazy nodes stand for something else. -/
  stands_of_not_lazy : ∀ h, store.lazyId? h = none → stands h = h

namespace Store

variable {ρ : Type} {σ : Store ρ} {h : Handle}

/-- Building goes on in the store that was left. -/
theorem bind_apply {α β : Type} (x : Build ρ α) (f : α → Build ρ β) :
    (x >>= f) σ = f (x σ).1 (x σ).2 := rfl

/-- To look at the store leaves it alone. -/
theorem get_apply : (get : Build ρ (Store ρ)) σ = (σ, σ) := rfl

/-- A handle that is not that of a lazy node stands for itself. -/
theorem resolve_of_not_lazy (run : Runner ρ) (hh : σ.lazyId? h = none) :
    resolve run h σ = (h, σ) := by
  unfold resolve
  rw [bind_apply]
  simp only [get_apply, hh]
  rfl

/-- A lazy node stands for what its definition leads to, and is empty where that is nowhere. -/
theorem resolve_of_lazy (run : Runner ρ) {d : LazyId} (hd : σ.lazyId? h = some d) :
    resolve run h σ
      = ((destination? run d σ).1.getD .never, (destination? run d σ).2) := by
  unfold resolve
  rw [bind_apply]
  simp only [get_apply, hd]
  rfl

section

variable {run : Runner ρ} {I : Store ρ → Prop}

section

variable (forces : ∀ d σ, I σ → I (force run d σ).2)
include forces

/-- What is kept where one lazy node is looked into is kept where a chain is followed. -/
theorem follow_keeps (steps : Nat) : ∀ (visited : List LazyId) (d : LazyId) (σ : Store ρ),
    I σ → I (follow run steps visited d σ).2 := by
  induction steps with
  | zero => exact fun _ _ _ h => h
  | succ steps ih =>
    intro visited d σ h
    have forced := forces d σ h
    unfold follow
    split
    · exact h
    · rw [bind_apply]
      generalize force run d σ = r at forced
      obtain ⟨x, τ⟩ := r
      cases x with
      | none => exact forced
      | some h =>
        -- the chain goes on where the resolution is a lazy node again
        dsimp only
        rw [bind_apply, get_apply]
        dsimp only
        cases τ.lazyId? h with
        | none => exact forced
        | some next => exact ih (d :: visited) next τ forced

/-- Resolving keeps what every single definition keeps. -/
theorem resolve_keeps (h : Handle) (σ : Store ρ) (hσ : I σ) : I (resolve run h σ).2 := by
  cases hd : σ.lazyId? h with
  | none =>
    rw [resolve_of_not_lazy run hd]
    exact hσ
  | some d =>
    rw [resolve_of_lazy run hd]
    exact follow_keeps forces longestChain [] d σ hσ

end

variable (runs : ∀ resolver σ, I σ → I (run resolver σ).2)
  (records : ∀ d h σ, I σ → I (recordResolution d h σ).2)
include runs records

/-- So does forcing one lazy node. -/
theorem force_invariant (d : LazyId) (h : I σ) : I (force run d σ).2 := by
  unfold force
  rw [bind_apply, get_apply]
  dsimp only
  cases σ.definitions.get? d with
  | none => exact h
  | some definition =>
    obtain ⟨resolver, resolution⟩ := definition
    cases resolution with
    | some h' => exact h
    | none =>
      cases resolver with
      | none => exact h
      | some resolver => exact records d _ _ (runs resolver σ h)

/-- And so does following a chain of them, of any length. -/
theorem follow_invariant (steps : Nat) : ∀ (visited : List LazyId) (d : LazyId) (σ : Store ρ),
    I σ → I (follow run steps visited d σ).2 :=
  follow_keeps (fun d _ h => force_invariant runs records d h) steps

/-- What resolvers keep, and the record of what they gave, resolving keeps. -/
theorem resolve_invariant (h : Handle) (σ : Store ρ) (hσ : I σ) : I (resolve run h σ).2 :=
  resolve_keeps (fun d _ hσ => force_invariant runs records d hσ) h σ hσ

end

end Store

/-- What a checker with resolvers `run` sees in a store. -/
def View.of {ρ : Type} (run : Runner ρ) (σ : Store ρ) (flags : Flags) : View ρ where
  store := σ
  stands := fun h => (Store.resolve run h σ).1
  flags := flags
  stands_of_not_lazy := fun _ hh => by rw [Store.resolve_of_not_lazy run hh]

@[simp] theorem Answer.isTrue_holds : Answer.holds.isTrue = true := rfl

@[simp] theorem Answer.isTrue_fails : Answer.fails.isTrue = false := rfl

attribute [simp] Answer.isTrue_ofBool

namespace Query

variable {ρ α β : Type}

/-! ## §2. The value of a query -/

/-- The value of a query where `fits` answers its questions and `keys` those about keys. -/
def eval (v : View ρ) (keys fits : Handle → Handle → Bool) : Query ρ α → α
  | done a => a
  | ask s t next => (next (.ofBool (fits s t))).eval v keys fits
  | askKeys s t next => (next (.ofBool (keys s t))).eval v keys fits
  | .resolve h next => (next (v.stands h)).eval v keys fits
  | .look next => (next v.store).eval v keys fits

@[simp] theorem bind_eq (q : Query ρ α) (f : α → Query ρ β) : (q >>= f) = q.bind f := rfl

@[simp] theorem pure_eq (a : α) : (pure a : Query ρ α) = done a := rfl

section

variable (v : View ρ) (keys fits : Handle → Handle → Bool)

/-- A query that is done evaluates to its answer. -/
@[simp] theorem eval_done (a : α) : (done a : Query ρ α).eval v keys fits = a := rfl

/-- A question about a pair evaluates to what the relation says. -/
@[simp] theorem eval_related (s t : Handle) :
    (related s t : Query ρ Answer).eval v keys fits = .ofBool (fits s t) := rfl

/-- A pair is answered as the relation has it. -/
theorem isTrue_eval_related (s t : Handle) :
    ((related s t : Query ρ Answer).eval v keys fits).isTrue = fits s t := by
  rw [eval_related, Answer.isTrue_ofBool]

/-- The store that a query looks at is the one of the view. -/
@[simp] theorem eval_store : (store : Query ρ (Store ρ)).eval v keys fits = v.store := rfl

/-- A query in two parts is evaluated part by part. -/
@[simp] theorem eval_bind (q : Query ρ α) (f : α → Query ρ β) :
    (q.bind f).eval v keys fits = (f (q.eval v keys fits)).eval v keys fits := by
  induction q with
  | done a => rfl
  | ask s t next ih => exact ih _
  | askKeys s t next ih => exact ih _
  | resolve h next ih => exact ih _
  | look next ih => exact ih _

/-! ## §3. The truth of joined queries -/

/-- Two queries in a row hold where both do. -/
@[simp] theorem isTrue_eval_andThen (q r : Query ρ Answer) :
    ((q.andThen r).eval v keys fits).isTrue
      = ((q.eval v keys fits).isTrue && (r.eval v keys fits).isTrue) := by
  unfold andThen
  rw [bind_eq, eval_bind]
  cases h : (q.eval v keys fits).isTrue with
  | true => simp
  | false => simp [h]

/-- A query for every element holds where it does for all of them. -/
@[simp] theorem isTrue_eval_every (q : α → Query ρ Answer) (xs : List α) :
    ((every q xs).eval v keys fits).isTrue
      = xs.all fun x => ((q x).eval v keys fits).isTrue := by
  induction xs with
  | nil => rfl
  | cons x xs ih =>
    show (((q x).andThen (every q xs)).eval v keys fits).isTrue = _
    rw [isTrue_eval_andThen, ih, List.all_cons]

/-- A query for some element holds where it does for one of them. -/
@[simp] theorem isTrue_eval_any (q : α → Query ρ Answer) (xs : List α) :
    ((any q xs).eval v keys fits).isTrue
      = xs.any fun x => ((q x).eval v keys fits).isTrue := by
  induction xs with
  | nil => rfl
  | cons x xs ih =>
    unfold any
    rw [bind_eq, eval_bind, List.any_cons]
    -- where the first does not hold, a cut-off answer may take the place of a failing one
    cases h : ((q x).eval v keys fits).isTrue with
    | true => simp [Answer.isTrue]
    | false =>
      simp only [Bool.false_eq_true, if_false, bind_eq, eval_bind, pure_eq, eval_done,
        Bool.false_or]
      rw [← ih]
      cases hb : ((any q xs).eval v keys fits).isTrue with
      | true => simp [hb]
      | false =>
        rw [if_neg (by simp)]
        unfold Answer.failing
        split
        · rfl
        · exact hb

end

end Query

end Assignability
