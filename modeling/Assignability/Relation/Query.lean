/-
  Assignability.Relation.Query
  ────────────────────────────
  **RULES AS QUESTIONS.**

  A rule decides a pair of descriptors by questions about smaller pairs.
  A query is such a rule with its questions left open: it asks whether one
  descriptor is assignable to another, resolves lazy nodes and looks into
  the store, and goes on with what it is told.  Who answers the questions
  is not part of the rule: the checker answers them by comparing the pair
  in its turn (`Query.run`).

  The questions about the keys of an index signature are kept apart.  All
  other answers can only help: where more pairs hold, more rules hold.
  Two keys in common, however, bring a further obligation.

  `every` and `any` ask one after the other and stop at the first answer
  that decides.
-/
import Assignability.Relation.Answer
import Assignability.Store.Resolve

namespace Assignability

/-- A rule whose questions are open, and its result once they are answered. -/
inductive Query (ρ α : Type) where
  /-- Nothing is left to ask. -/
  | done (result : α)
  /-- Asks whether a source is assignable to a target. -/
  | ask (source target : Handle) (next : Answer → Query ρ α)
  /-- Asks whether a key type is assignable to another. -/
  | askKeys (source target : Handle) (next : Answer → Query ρ α)
  /-- Follows a lazy node to what it stands for. -/
  | resolve (h : Handle) (next : Handle → Query ρ α)
  /-- Looks into the store. -/
  | look (next : Store ρ → Query ρ α)

namespace Query

variable {ρ α β : Type}

/-! ## §1. Queries one after the other -/

/-- Goes on with a query once the result of another is known. -/
def bind : Query ρ α → (α → Query ρ β) → Query ρ β
  | done a, f => f a
  | ask s t next, f => ask s t fun a => (next a).bind f
  | askKeys s t next, f => askKeys s t fun a => (next a).bind f
  | resolve h next, f => resolve h fun h => (next h).bind f
  | look next, f => look fun σ => (next σ).bind f

instance : Monad (Query ρ) where
  pure := done
  bind := bind

/-- Whether `source` is assignable to `target`. -/
def related (source target : Handle) : Query ρ Answer := ask source target done

/-- What a handle stands for when no lazy node is left. -/
def resolved (h : Handle) : Query ρ Handle := resolve h done

/-- The store as it is. -/
def store : Query ρ (Store ρ) := look done

/-- The descriptor of a handle. -/
def node? (h : Handle) : Query ρ (Option Node) := look fun σ => done (σ.node? h)

/-- Queries that are done in a row may be grouped in any way. -/
theorem bind_assoc {γ : Type} (q : Query ρ α) (f : α → Query ρ β) (g : β → Query ρ γ) :
    (q.bind f).bind g = q.bind fun a => (f a).bind g := by
  induction q with
  | done a => rfl
  | ask s t next ih => simp only [bind, ih]
  | askKeys s t next ih => simp only [bind, ih]
  | resolve h next ih => simp only [bind, ih]
  | look next ih => simp only [bind, ih]

/-! ## §2. Joining answers -/

/-- The second query where the first holds, otherwise the answer of the first. -/
def andThen (q r : Query ρ Answer) : Query ρ Answer := do
  let a ← q
  if a.isTrue then r else pure a

/-- Whether a query holds of every element: the first answer that does not, if there is one. -/
def every (q : α → Query ρ Answer) : List α → Query ρ Answer
  | [] => pure .holds
  | x :: xs => (q x).andThen (every q xs)

/-- Whether a query holds of some element, asked up to the first that does; where none does, cut
off when any answer was. -/
def any (q : α → Query ρ Answer) : List α → Query ρ Answer
  | [] => pure .fails
  | x :: xs => do
    let a ← q x
    if a.isTrue then pure .holds
    else do
      let b ← any q xs
      pure (if b.isTrue then b else a.failing b)

/-! ## §3. Answering the questions -/

/-- Answers the questions of a query by actions of another kind, in their order. -/
def run {m : Type → Type} [Monad m] (related : Handle → Handle → m Answer)
    (resolve : Handle → m Handle) (look : m (Store ρ)) : Query ρ α → m α
  | done a => pure a
  | ask s t next => do (next (← related s t)).run related resolve look
  | askKeys s t next => do (next (← related s t)).run related resolve look
  | .resolve h next => do (next (← resolve h)).run related resolve look
  | .look next => do (next (← look)).run related resolve look

end Query

end Assignability
