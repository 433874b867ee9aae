/-
  Assignability.Proofs.Query.Positive
  ───────────────────────────────────
  **QUERIES THAT MORE PAIRS CAN ONLY HELP.**

  Every rule asks for all of some questions or for one of some questions,
  and none asks that a pair fail.  `Positive` says so of a query by the
  way it is put together, and says with it which questions the query may
  pose at all (its `Scope`).  What a query finds out on the way without a
  question about fit (a key, a sort, a layout) is `Quiet`.

  Main statement: `Positive.eval_mono` — where more of the questions in
  scope hold, the query holds the more.
-/
import Assignability.Proofs.Query.Eval

namespace Assignability.Query

variable {ρ α β : Type} {v : View ρ}

/-! ## §1. What a query may ask -/

/-- The questions that a query may pose, those about keys apart, and the handles it may follow. -/
structure Scope where
  asks : Handle → Handle → Prop
  keys : Handle → Handle → Prop
  follows : Handle → Prop

/-- A query that asks about keys at most, and all of whose results have a property. -/
inductive Quiet (v : View ρ) (c : Scope) (holdsOf : α → Prop) : Query ρ α → Prop
  | done {a : α} (h : holdsOf a) : Quiet v c holdsOf (.done a)
  | look {next : Store ρ → Query ρ α} (h : Quiet v c holdsOf (next v.store)) :
    Quiet v c holdsOf (.look next)
  | resolve {h : Handle} {next : Handle → Query ρ α} (hc : c.follows h)
    (hn : Quiet v c holdsOf (next (v.stands h))) : Quiet v c holdsOf (.resolve h next)
  | askKeys {s t : Handle} {next : Answer → Query ρ α} (hc : c.keys s t)
    (hn : ∀ a, next a = next (.ofBool a.isTrue))
    (hb : ∀ b, Quiet v c holdsOf (next (.ofBool b))) : Quiet v c holdsOf (.askKeys s t next)

/-- A query that holds the more, the more of its questions hold. -/
inductive Positive (v : View ρ) (c : Scope) : Query ρ Answer → Prop
  | holds : Positive v c (.done .holds)
  | fails : Positive v c (.done .fails)
  | related {s t : Handle} (hc : c.asks s t) : Positive v c (related s t)
  /-- Both queries hold. -/
  | andThen {q r : Query ρ Answer} (hq : Positive v c q) (hr : Positive v c r) :
    Positive v c (q.andThen r)
  /-- One query or the other holds; where neither does, the first tells whether a limit was hit,
  unless the second does. -/
  | orElse {q r : Query ρ Answer} {next : Answer → Query ρ Answer} (hq : Positive v c q)
    (hr : Positive v c r) (ht : ∀ a, a.isTrue = true → next a = .done .holds ∨ next a = .done a)
    (hf : ∀ a, a.isTrue = false → next a = r.bind fun b => .done (if b = .fails then a else b)) :
    Positive v c (q.bind next)
  | look {next : Store ρ → Query ρ Answer} (h : Positive v c (next v.store)) :
    Positive v c (.look next)
  | resolve {h : Handle} {next : Handle → Query ρ Answer} (hc : c.follows h)
    (hn : Positive v c (next (v.stands h))) : Positive v c (.resolve h next)
  | askKeys {s t : Handle} {next : Answer → Query ρ Answer} (hc : c.keys s t)
    (hn : ∀ a, next a = next (.ofBool a.isTrue)) (hb : ∀ b, Positive v c (next (.ofBool b))) :
    Positive v c (.askKeys s t next)

/-! ## §2. Quiet queries -/

section

variable {c : Scope}

/-- A quiet query may be known to yield less. -/
theorem Quiet.imp {φ ψ : α → Prop} {q : Query ρ α} (hq : q.Quiet v c φ) (h : ∀ a, φ a → ψ a) :
    q.Quiet v c ψ := by
  induction hq with
  | done ha => exact .done (h _ ha)
  | look _ ih => exact .look ih
  | resolve hc _ ih => exact .resolve hc ih
  | askKeys hc hn _ ih => exact .askKeys hc hn ih

/-- A quiet query that goes on quietly is quiet. -/
theorem Quiet.bind {φ : α → Prop} {ψ : β → Prop} {q : Query ρ α} {f : α → Query ρ β}
    (hq : q.Quiet v c φ) (hf : ∀ a, φ a → (f a).Quiet v c ψ) : (q.bind f).Quiet v c ψ := by
  induction hq with
  | done ha => exact hf _ ha
  | look _ ih => exact .look ih
  | resolve hc _ ih => exact .resolve hc ih
  | askKeys hc hn _ ih => exact .askKeys hc (fun a => congrArg (·.bind f) (hn a)) ih

/-- What follows a quiet query may rest on what it found out. -/
theorem Quiet.bindPositive {φ : α → Prop} {q : Query ρ α} {f : α → Query ρ Answer}
    (hq : q.Quiet v c φ) (hf : ∀ a, φ a → (f a).Positive v c) : (q.bind f).Positive v c := by
  induction hq with
  | done ha => exact hf _ ha
  | look _ ih => exact .look ih
  | resolve hc _ ih => exact .resolve hc ih
  | askKeys hc hn _ ih => exact .askKeys hc (fun a => congrArg (·.bind f) (hn a)) ih

/-- To resolve within the scope asks for no pair. -/
theorem Quiet.resolved {h : Handle} (hc : c.follows h) :
    (resolved h : Query ρ Handle).Quiet v c (· = v.stands h) := .resolve hc (.done rfl)

/-- A search through quiet tests is quiet. -/
theorem Quiet.anyM {q : α → Query ρ Bool} {xs : List α}
    (h : ∀ x ∈ xs, (q x).Quiet v c fun _ => True) : (xs.anyM q).Quiet v c fun _ => True := by
  induction xs with
  | nil => exact .done trivial
  | cons x xs ih =>
    unfold List.anyM
    refine (h x List.mem_cons_self).bind fun b _ => ?_
    cases b with
    | true => exact .done trivial
    | false => exact ih fun y hy => h y (List.mem_cons_of_mem x hy)

/-- A test of all by quiet tests is quiet. -/
theorem Quiet.allM {q : α → Query ρ Bool} {xs : List α}
    (h : ∀ x ∈ xs, (q x).Quiet v c fun _ => True) : (xs.allM q).Quiet v c fun _ => True := by
  induction xs with
  | nil => exact .done trivial
  | cons x xs ih =>
    unfold List.allM
    refine (h x List.mem_cons_self).bind fun b _ => ?_
    cases b with
    | true => exact ih fun y hy => h y (List.mem_cons_of_mem x hy)
    | false => exact .done trivial

/-! ## §3. Positive queries -/

/-- A fixed answer is positive. -/
theorem Positive.ofBool (b : Bool) : (done (.ofBool b) : Query ρ Answer).Positive v c := by
  cases b with
  | true => exact .holds
  | false => exact .fails

/-- A query for every element is positive where those for the elements are. -/
theorem Positive.every {q : α → Query ρ Answer} {xs : List α}
    (h : ∀ x ∈ xs, (q x).Positive v c) : (every q xs).Positive v c := by
  induction xs with
  | nil => exact .holds
  | cons x xs ih =>
    exact .andThen (h x List.mem_cons_self) (ih fun y hy => h y (List.mem_cons_of_mem x hy))

/-- Where the first query does not hold, what is tried instead comes to the second. -/
theorem Positive.instead {q r : Query ρ Answer} {other : Answer → Query ρ Answer}
    (hq : q.Positive v c) (hr : r.Positive v c)
    (h : ∀ a, a.isTrue = false →
      other a = r.bind fun b => .done (if b = .fails then a else b)) :
    (q.bind fun a => if a.isTrue then .done .holds else other a).Positive v c := by
  refine .orElse hq hr (fun a ha => .inl (if_pos ha)) fun a ha => ?_
  rw [if_neg (by rw [ha]; decide)]
  exact h a ha

/-- A query for some element is positive where those for the elements are. -/
theorem Positive.any {q : α → Query ρ Answer} {xs : List α}
    (h : ∀ x ∈ xs, (q x).Positive v c) : (any q xs).Positive v c := by
  induction xs with
  | nil => exact .fails
  | cons x xs ih =>
    have tail := ih fun y hy => h y (List.mem_cons_of_mem x hy)
    refine .instead (r := Query.any q xs) (h x List.mem_cons_self) tail fun a ha => ?_
    -- the answer to the others counts, unless it fails where the first was cut off
    show (Query.any q xs).bind _ = _
    congr 1
    funext b
    cases a <;> cases b <;> first | rfl | cases ha

/-! ## §4. More answers help -/

/-- One query or the other holds, as in `Positive.orElse`. -/
theorem isTrue_eval_orElse {q r : Query ρ Answer} {next : Answer → Query ρ Answer}
    (ht : ∀ a, a.isTrue = true → next a = .done .holds ∨ next a = .done a)
    (hf : ∀ a, a.isTrue = false → next a = r.bind fun b => .done (if b = .fails then a else b))
    (keys fits : Handle → Handle → Bool) :
    ((q.bind next).eval v keys fits).isTrue
      = ((q.eval v keys fits).isTrue || (r.eval v keys fits).isTrue) := by
  rw [eval_bind]
  -- where the first holds nothing else counts, and otherwise the second decides
  cases ha : (q.eval v keys fits).isTrue with
  | true =>
    rcases ht _ ha with h | h
    · rw [h]; rfl
    · rw [h]; simp [ha]
  | false =>
    rw [hf _ ha, eval_bind, eval_done, Bool.false_or]
    split
    · next h => rw [h, ha]; rfl
    · rfl

/-- **WHERE MORE PAIRS IN SCOPE HOLD, A POSITIVE QUERY HOLDS THE MORE.**  The answers about keys
are the same on both sides. -/
theorem Positive.eval_mono {q : Query ρ Answer} (hq : q.Positive v c)
    {keys keys' fits fits' : Handle → Handle → Bool}
    (hk : ∀ s t, c.keys s t → keys s t = keys' s t)
    (hf : ∀ s t, c.asks s t → fits s t = true → fits' s t = true) :
    (q.eval v keys fits).isTrue = true → (q.eval v keys' fits').isTrue = true := by
  -- on how the query is put together; only a question that is asked can tell the two apart
  induction hq with
  | holds => exact id
  | fails => exact id
  | related hc =>
    simp only [eval_related, Answer.isTrue_ofBool]
    exact hf _ _ hc
  | andThen _ _ ihq ihr =>
    simp only [isTrue_eval_andThen, Bool.and_eq_true]
    intro h
    exact ⟨ihq h.1, ihr h.2⟩
  | @orElse q r next _ _ ht hn ihq ihr =>
    rw [isTrue_eval_orElse ht hn, isTrue_eval_orElse ht hn, Bool.or_eq_true, Bool.or_eq_true]
    intro h
    exact h.imp ihq ihr
  | look _ ih => exact ih
  | resolve _ _ ih => exact ih
  | @askKeys s t next hc _ _ ih =>
    intro h
    -- both go on with the same answer, whichever it is
    show ((next (.ofBool (keys' s t))).eval v keys' fits').isTrue = true
    rw [← hk _ _ hc]
    exact ih _ h

/-- A quiet query looks at the answers about keys alone. -/
theorem Quiet.eval_congr {φ : α → Prop} {q : Query ρ α} (hq : q.Quiet v c φ)
    {keys keys' fits fits' : Handle → Handle → Bool}
    (hk : ∀ s t, c.keys s t → keys s t = keys' s t) :
    q.eval v keys fits = q.eval v keys' fits' := by
  induction hq with
  | done _ => rfl
  | look _ ih => exact ih
  | resolve _ _ ih => exact ih
  | @askKeys s t next hc _ _ ih =>
    show (next (.ofBool (keys s t))).eval v keys fits = (next (.ofBool (keys' s t))).eval v keys' fits'
    rw [hk s t hc]
    exact ih _

end

end Assignability.Query
