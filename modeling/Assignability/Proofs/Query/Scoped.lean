/-
  Assignability.Proofs.Query.Scoped
  ─────────────────────────────────
  **QUERIES THAT STAY WITHIN A SETTING.**

  Not every query joins the answers to one truth: what is to blame for a
  pair is found by a query as well.  Of such a query it is said here what
  it may ask about and follow, and what is known of its results, whatever
  the answers are (`Query.Scoped`).  A setting says in which stores it is
  made: in the one of a view (`Setting.of`), or in one that may change on
  the way as it likes (`Setting.any`).
-/
import Assignability.Proofs.Query.Positive
import Assignability.Relation.Checker

namespace Assignability.Query

variable {ρ α β : Type} {v : View ρ} {σ : Store ρ} {good : α → Prop} {good' : β → Prop}

/-! ## §1. Settings -/

/-- What a query may come upon: the stores that it may see and what handles may be found to stand for,
besides what it may ask about and follow. -/
structure Setting (ρ : Type) extends Scope where
  sees : Store ρ → Prop
  stands : Handle → Handle → Prop

namespace Setting

/-- A scope in the store of a view. -/
def of (v : View ρ) (c : Scope) : Setting ρ where
  toScope := c
  sees := (· = v.store)
  stands := fun h g => g = v.stands h

/-- All that there is. -/
def any : Setting ρ where
  asks := fun _ _ => True
  keys := fun _ _ => True
  follows := fun _ => True
  sees := fun _ => True
  stands := fun _ _ => True

end Setting

/-! ## §2. Queries in a setting -/

/-- A query that stays within a setting, and all of whose results are good. -/
inductive Scoped (c : Setting ρ) (good : α → Prop) : Query ρ α → Prop
  | done {a : α} (h : good a) : Scoped c good (.done a)
  | look {next : Store ρ → Query ρ α} (h : ∀ σ, c.sees σ → Scoped c good (next σ)) :
    Scoped c good (.look next)
  | resolve {h : Handle} {next : Handle → Query ρ α} (hc : c.follows h)
    (hn : ∀ g, c.stands h g → Scoped c good (next g)) : Scoped c good (.resolve h next)
  | ask {s t : Handle} {next : Answer → Query ρ α} (hc : c.asks s t)
    (hn : ∀ a, Scoped c good (next a)) : Scoped c good (.ask s t next)
  | askKeys {s t : Handle} {next : Answer → Query ρ α} (hc : c.keys s t)
    (hn : ∀ a, Scoped c good (next a)) : Scoped c good (.askKeys s t next)

namespace Scoped

variable {c : Setting ρ} {q : Query ρ α}

/-- A query in a scope may be known to yield less. -/
theorem imp {better : α → Prop} (hq : q.Scoped c better) (h : ∀ a, better a → good a) :
    q.Scoped c good := by
  induction hq with
  | done ha => exact .done (h _ ha)
  | look _ ih => exact .look ih
  | resolve hc _ ih => exact .resolve hc ih
  | ask hc _ ih => exact .ask hc ih
  | askKeys hc _ ih => exact .askKeys hc ih

/-- A query in a scope that goes on in the scope stays there. -/
theorem bind {f : α → Query ρ β} (hq : q.Scoped c good)
    (hf : ∀ a, good a → (f a).Scoped c good') : (q.bind f).Scoped c good' := by
  induction hq with
  | done ha => exact hf _ ha
  | look _ ih => exact .look ih
  | resolve hc _ ih => exact .resolve hc ih
  | ask hc _ ih => exact .ask hc ih
  | askKeys hc _ ih => exact .askKeys hc ih

/-- The value of a query is one of its results. -/
theorem eval {c : Scope} (hq : q.Scoped (.of v c) good) (keys fits : Handle → Handle → Bool) :
    good (q.eval v keys fits) := by
  induction hq with
  | done ha => exact ha
  | look _ ih => exact ih _ rfl
  | resolve _ _ ih => exact ih _ rfl
  | ask _ _ ih => exact ih _
  | askKeys _ _ ih => exact ih _

/-- And so is what it comes to, however it is answered. -/
theorem answer {run : Runner ρ} {related : Handle → Handle → Inquire ρ Answer}
    (hq : q.Scoped .any good) (w : Inquiry ρ) : good (answer run related q w).1 := by
  induction hq generalizing w with
  | done ha => exact ha
  | look _ ih => exact ih _ trivial _
  | resolve _ _ ih => exact ih _ trivial _
  | ask _ _ ih => exact ih _ _
  | askKeys _ _ ih => exact ih _ _

end Scoped

/-- A quiet query asks about keys at most. -/
theorem Quiet.scoped {c : Scope} {q : Query ρ α} (hq : q.Quiet v c good) :
    q.Scoped (.of v c) good := by
  induction hq with
  | done ha => exact .done ha
  | look _ ih => exact .look fun _ seen => seen ▸ ih
  | resolve hc _ ih => exact .resolve hc fun _ stands => stands ▸ ih
  | askKeys hc hn _ ih =>
    refine .askKeys hc fun a => ?_
    rw [hn a]
    exact ih a.isTrue

/-- Every query is in the scope that has everything in it. -/
theorem scoped_any (q : Query ρ α) : q.Scoped .any fun _ => True := by
  induction q with
  | done a => exact .done trivial
  | ask _ _ _ ih => exact .ask trivial ih
  | askKeys _ _ _ ih => exact .askKeys trivial ih
  | resolve _ _ ih => exact .resolve trivial fun g _ => ih g
  | look _ ih => exact .look fun σ _ => ih σ

/-! ## §3. What is seen first -/

/-- A query after it has looked at the store, as often as it does so before anything else. -/
def seeing (σ : Store ρ) : Query ρ α → Query ρ α
  | .look next => (next σ).seeing σ
  | q => q

/-- A query that sees a store goes on with it where it looks. -/
theorem seeing_bind_store (f : Store ρ → Query ρ α) :
    (store.bind f).seeing σ = (f σ).seeing σ := rfl

/-- A query that sees a store of the setting stays in its scope. -/
theorem Scoped.seeing {c : Setting ρ} {q : Query ρ α} (hq : q.Scoped c good) (seen : c.sees σ) :
    (q.seeing σ).Scoped c good := by
  induction hq with
  | done ha => exact .done ha
  | look _ ih => exact ih _ seen
  | resolve hc hn _ => exact .resolve hc hn
  | ask hc hn _ => exact .ask hc hn
  | askKeys hc hn _ => exact .askKeys hc hn

/-- What stays in scope while it sees the store of the view, stays there at all. -/
theorem scoped_of_seeing {c : Scope} {q : Query ρ α}
    (h : (q.seeing v.store).Scoped (.of v c) good) : q.Scoped (.of v c) good := by
  induction q with
  | look _ ih => exact .look fun _ seen => seen ▸ ih _ h
  | _ => exact h

/-- A query that sees the store it is answered in is answered as it is. -/
theorem answer_seeing {run : Runner ρ} {related : Handle → Handle → Inquire ρ Answer}
    (q : Query ρ α) (w : Inquiry ρ) :
    answer run related (q.seeing w.store) w = answer run related q w := by
  induction q with
  | look _ ih => exact ih _
  | _ => rfl

end Assignability.Query
