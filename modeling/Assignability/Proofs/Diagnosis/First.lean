/-
  Assignability.Proofs.Diagnosis.First
  ────────────────────────────────────
  **WHAT FAILS FIRST IS TO BLAME.**

  The parts of a pair are looked at in the order of the rule, and the
  first one that does not hold is to blame, whatever stands after it
  (`FirstNot`).  One lemma for each way in which the search for the blame
  is put together says what it comes to, and `View.blame_of_nodes` begins
  the search for a pair.
-/
import Assignability.Proofs.Diagnosis.Blame

namespace Assignability

variable {ρ α : Type}

/-! ## §1. The first that fails -/

/-- An entry of a list, with its place, that fails where all entries before it hold. -/
structure FirstNot (holds : α → Prop) (xs : List α) (k : Nat) (x : α) : Prop where
  place : xs[k]? = some x
  fails : ¬ holds x
  before : ∀ i, i < k → ∀ y, xs[i]? = some y → holds y

namespace FirstNot

variable {holds : α → Prop} {xs : List α} {k : Nat} {x y : α}

/-- The head is first where it fails. -/
theorem head (h : ¬ holds x) : FirstNot holds (x :: xs) 0 x where
  place := rfl
  fails := h
  before := fun i hi => absurd hi (Nat.not_lt_zero i)

/-- Behind an element that holds, the first one stands one place later. -/
theorem cons (first : holds y) (h : FirstNot holds xs k x) : FirstNot holds (y :: xs) (k + 1) x where
  place := h.place
  fails := h.fails
  before := by
    intro i hi z hz
    cases i with
    | zero => exact Option.some.inj hz ▸ first
    | succ i => exact h.before i (by omega) z hz

/-- Where less is asked of the entries, the first one that fails is the same if it still does. -/
theorem weaken {holds' : α → Prop} (h : FirstNot holds xs k x) (less : ∀ y, holds y → holds' y)
    (fails : ¬ holds' x) : FirstNot holds' xs k x where
  place := h.place
  fails := fails
  before := fun i hi y hy => less y (h.before i hi y hy)

/-- Only what holds matters, not how it is said. -/
theorem congr {holds' : α → Prop} (h : FirstNot holds xs k x) (same : ∀ y, holds y ↔ holds' y) :
    FirstNot holds' xs k x := h.weaken (fun y => (same y).1) fun hx => h.fails ((same x).2 hx)

/-- There is one first element only. -/
theorem unique {i : Nat} (h : FirstNot holds xs k x) (h' : FirstNot holds xs i y) : x = y := by
  rcases Nat.lt_trichotomy k i with lt | rfl | gt
  · exact absurd (h'.before k lt x h.place) h.fails
  · exact Option.some.inj (h.place.symm.trans h'.place)
  · exact absurd (h.before i gt y h'.place) h'.fails

/-- Where there is a first failing element, not all of them hold. -/
theorem not_all (h : FirstNot holds xs k x) : ¬ ∀ y ∈ xs, holds y := fun all =>
  h.fails (all x (List.mem_of_getElem? h.place))

end FirstNot

/-! ## §2. The search -/

namespace Query

variable {v : View ρ} {s t : Handle} {keys fits : Handle → Handle → Bool}

/-- The second search counts where the first one finds nothing. -/
@[simp] theorem eval_orBlame (q r : Query ρ (Option Blame)) :
    (q.orBlame r).eval v keys fits = (q.eval v keys fits).or (r.eval v keys fits) := by
  unfold orBlame
  rw [bind_eq, eval_bind]
  cases q.eval v keys fits <;> rfl

/-- A part is blamed where it does not fit. -/
@[simp] theorem eval_blamePart? (around : Reason → Reason) :
    (blamePart? s t around : Query ρ _).eval v keys fits
      = if fits s t then none else some (.part s t around) := by
  show (if (Answer.ofBool (fits s t)).isTrue then none else some (Blame.part s t around)) = _
  rw [Answer.isTrue_ofBool]

/-- The reason of a pair is given where it does not fit. -/
@[simp] theorem eval_reasonPart? (r : Reason) :
    (reasonPart? s t r : Query ρ _).eval v keys fits
      = if fits s t then none else some (.reason r) := by
  show (if (Answer.ofBool (fits s t)).isTrue then none else some (Blame.reason r)) = _
  rw [Answer.isTrue_ofBool]

end Query

namespace View

variable (v : View ρ)

/-- A search through a list finds what is to blame for the first entry that fails, and tells it by
its place. -/
theorem eval_search (search : Nat → List α → Query ρ (Option Blame))
    (each : Nat → α → Query ρ (Option Blame)) (holds : α → Prop) (blame : Nat → α → Blame)
    (nil : ∀ n, search n [] = .done none)
    (cons : ∀ n x xs, search n (x :: xs) = (each n x).orBlame (search (n + 1) xs))
    (passes : ∀ n x, holds x → (each n x).eval v v.fits v.fits = none)
    (blames : ∀ n x, ¬ holds x → (each n x).eval v v.fits v.fits = some (blame n x))
    (xs : List α) :
    ∀ n, (∀ x ∈ xs, holds x) ∧ (search n xs).eval v v.fits v.fits = none ∨
      ∃ k x, FirstNot holds xs k x ∧
        (search n xs).eval v v.fits v.fits = some (blame (n + k) x) := by
  -- the search counts from any number on, so this one is not fixed
  induction xs with
  | nil =>
    intro n
    rw [nil]
    exact .inl ⟨nofun, rfl⟩
  | cons x xs ih =>
    intro n
    rw [cons, Query.eval_orBlame]
    by_cases hx : holds x
    · rw [passes n x hx, Option.none_or]
      rcases ih (n + 1) with ⟨all, found⟩ | ⟨k, y, first, found⟩
      · refine .inl ⟨fun y hy => ?_, found⟩
        rcases List.mem_cons.1 hy with rfl | hy
        · exact hx
        · exact all y hy
      · refine .inr ⟨k + 1, y, .cons hx first, ?_⟩
        rw [found, Nat.add_right_comm]
        rfl
    · rw [blames n x hx]
      exact .inr ⟨0, x, .head hx, rfl⟩

/-- And one that looks at the entries alone finds what the first of them comes to that fails. -/
theorem eval_findSomeM? (q : α → Query ρ (Option Blame)) (xs : List α) :
    (∀ x ∈ xs, (q x).eval v v.fits v.fits = none) ∧
        (xs.findSomeM? q).eval v v.fits v.fits = none ∨
      ∃ k x, FirstNot (fun x => (q x).eval v v.fits v.fits = none) xs k x ∧
        (xs.findSomeM? q).eval v v.fits v.fits = (q x).eval v v.fits v.fits := by
  have named : ∀ x, ¬ (q x).eval v v.fits v.fits = none →
      (q x).eval v v.fits v.fits = some (((q x).eval v v.fits v.fits).getD .endless) := by
    intro x h
    cases hx : (q x).eval v v.fits v.fits with
    | none => exact absurd hx h
    | some blame => rfl
  -- an entry holds if nothing is to blame for it; its place is not told
  have found := v.eval_search (fun _ xs => xs.findSomeM? q) (fun _ => q)
    (fun x => (q x).eval v v.fits v.fits = none)
    (fun _ x => ((q x).eval v v.fits v.fits).getD .endless) (fun _ => rfl)
    (fun _ => Query.findSomeM?_cons q) (fun _ _ h => h) (fun _ => named) xs 0
  rcases found with all | ⟨k, x, first, found⟩
  · exact .inl all
  · exact .inr ⟨k, x, first, found.trans (named x first.fails).symm⟩

end View

/-! ## §3. A pair of nodes -/

namespace View

variable {v : View ρ} {s t : Handle} {source target : Node}

/-- What is to blame for a pair is what is to blame for the nodes that the two stand for. -/
theorem blame_of_nodes (hs : v.store.node? (v.stands s) = some source)
    (ht : v.store.node? (v.stands t) = some target) :
    v.blame s t = ((Query.blameNodes? v.flags (v.stands s) (v.stands t) source target).eval v v.fits
      v.fits).getD (.reason (.mismatch s t)) := by
  unfold blame Query.blame
  simp only [Query.bind_eq, Query.eval_bind, Query.eval_resolved, Query.eval_store]
  rw [hs, ht]
  exact Query.eval_bind v v.fits v.fits _ _

/-- Nodes that are compared by the rule for their constructors are blamed by it. -/
theorem eval_blameNodes?_of_rule {rule : Rule} (ps : source.isShape = true)
    (pt : target.isShape = true) (hrule : Rule.of? source.kind target.kind = some rule) :
    (Query.blameNodes? v.flags s t source target).eval v v.fits v.fits
      = (Query.blameRule? v.flags rule s t source target).eval v v.fits v.fits := by
  unfold Query.blameNodes? Query.blameBrand?
  simp only [Query.bind_eq, Query.eval_bind, Query.eval_store]
  cases source <;> cases ps <;> cases target <;> cases pt <;> cases hrule <;> rfl

/-- Between shapes that a rule is chosen for, that rule finds the blame, or the bare mismatch
stands. -/
theorem blame_of_rule {rule : Rule} (hs : v.store.node? s = some source)
    (ht : v.store.node? t = some target) (ps : source.isShape = true) (pt : target.isShape = true)
    (hrule : Rule.of? source.kind target.kind = some rule) :
    v.blame s t = ((Query.blameRule? v.flags rule s t source target).eval v v.fits v.fits).getD
      (.reason (.mismatch s t)) := by
  have ls : v.stands s = s := v.stands_of_not_lazy s
    (Store.lazyId?_of_notLazy hs (by cases source <;> first | rfl | cases ps))
  have lt : v.stands t = t := v.stands_of_not_lazy t
    (Store.lazyId?_of_notLazy ht (by cases target <;> first | rfl | cases pt))
  rw [blame_of_nodes (by rw [ls]; exact hs) (by rw [lt]; exact ht), ls, lt,
    eval_blameNodes?_of_rule ps pt hrule]

end View

/-- Why a new checker finds a pair without lazy nodes to be unrelated, in whatever store: the reason
is the one for what is to blame by the largest relation. -/
theorem explain?_of_lazyFree {run : Runner ρ} {policy : Policy} {σ : Store ρ} {s t : Handle}
    (fs : σ.LazyFree s) (ft : σ.LazyFree t)
    (unrelated : (Store.assignable run policy s t σ).1 = false)
    (within : (Inquire.explain? run s t ⟨σ, .new policy⟩).2.checker.exceeded = false) :
    ¬ (View.of run σ policy.flags).Fits s t ∧ ∃ below, (Store.explain? run policy s t σ).1
      = some (((View.of run σ policy.flags).blame s t).toReason below s t) := by
  have ready := ready_new run σ policy
  have hs : (View.of run σ policy.flags).Tame run s := fs.atRest.quiescent.tame
  have ht : (View.of run σ policy.flags).Tame run t := ft.atRest.quiescent.tame
  -- the explanation begins with the comparison, which therefore hit no limit either
  have first := (Inquire.kept_explain?_of_check s t ⟨σ, .new policy⟩).within_limits within
  have apart : (View.of run σ policy.flags).fits s t = false := by
    rw [← Answer.isTrue_ofBool ((View.of run σ policy.flags).fits s t),
      ← (ready.check hs ht first).1]
    exact unrelated
  have explained : (Store.explain? run policy s t σ).1 = _ :=
    (ready.explain? hs ht rfl within).1
  rw [explained]
  unfold View.reason?
  rw [apart]
  refine ⟨fun fits => ?_, _, rfl⟩
  rw [View.fits_eq_true.2 fits] at apart
  cases apart

end Assignability
