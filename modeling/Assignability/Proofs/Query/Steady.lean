/-
  Assignability.Proofs.Query.Steady
  ─────────────────────────────────
  **QUERIES THAT GO ON IN A GROWING STORE.**

  While a query is answered, resolvers may build.  A query is steady from
  a store on when that makes no difference to it: whatever it reads of the
  store is there already and reads the same in every later store, it asks
  about handles of the store, and it goes on from what a lazy node was
  resolved to in the store that this led to (`Query.Steady`).
-/
import Assignability.Proofs.Store.History

namespace Assignability.Query

open Store

variable {ρ α β : Type} {σ τ : Store ρ} {good : Store ρ → α → Prop} {good' : Store ρ → β → Prop}

/-! ## §1. Steady queries -/

/-- A query that goes the same way from all later stores on, to a result that is good there. -/
inductive Steady (good : Store ρ → α → Prop) : Store ρ → Query ρ α → Prop
  | done {σ : Store ρ} {a : α} (h : good σ a) : Steady good σ (.done a)
  | ask {σ : Store ρ} {s t : Handle} {next : Answer → Query ρ α} (hs : σ.Has s) (ht : σ.Has t)
    (hn : ∀ a, Steady good σ (next a)) : Steady good σ (.ask s t next)
  | askKeys {σ : Store ρ} {s t : Handle} {next : Answer → Query ρ α} (hs : σ.Has s)
    (ht : σ.Has t) (hn : ∀ a, Steady good σ (next a)) : Steady good σ (.askKeys s t next)
  | resolve {σ : Store ρ} {h : Handle} {next : Handle → Query ρ α} (hh : σ.Has h)
    (hn : ∀ τ x, σ.Extends τ → τ.IsWhole → τ.Has x → Steady good τ (next x)) :
    Steady good σ (.resolve h next)
  | look {σ : Store ρ} {next : Store ρ → Query ρ α}
    (same : ∀ τ, σ.Extends τ → next τ = next σ) (hn : Steady good σ (next σ)) :
    Steady good σ (.look next)

/-- A steady query of whose result nothing is said. -/
abbrev Runs (σ : Store ρ) (q : Query ρ α) : Prop := q.Steady (fun _ _ => True) σ

/-- A steady query is steady in every later store. -/
theorem Steady.mono {q : Query ρ α} (hq : q.Steady good σ)
    (kept : ∀ σ τ a, σ.Extends τ → good σ a → good τ a) (later : σ.Extends τ) :
    q.Steady good τ := by
  induction hq generalizing τ with
  | done h => exact .done (kept _ _ _ later h)
  | ask hs ht _ ih => exact .ask (later.has hs) (later.has ht) fun a => ih a later
  | askKeys hs ht _ ih => exact .askKeys (later.has hs) (later.has ht) fun a => ih a later
  | resolve hh hn _ => exact .resolve (later.has hh) fun υ x hυ => hn υ x (later.trans hυ)
  | look same _ ih =>
    refine .look (fun υ hυ => ?_) ?_
    · rw [same υ (later.trans hυ), same τ later]
    · rw [same τ later]
      exact ih later

/-- A query that runs in a store runs in every later one. -/
theorem Runs.mono {q : Query ρ α} (hq : q.Runs σ) (later : σ.Extends τ) : q.Runs τ :=
  Steady.mono hq (fun _ _ _ _ _ => trivial) later

/-- A steady query that goes on steadily is steady. -/
theorem Steady.bind {q : Query ρ α} {f : α → Query ρ β} (hq : q.Steady good σ)
    (whole : σ.IsWhole)
    (hf : ∀ τ a, σ.Extends τ → τ.IsWhole → good τ a → (f a).Steady good' τ) :
    (q.bind f).Steady good' σ := by
  induction hq with
  | done h => exact hf _ _ (.refl _) whole h
  | ask hs ht _ ih => exact .ask hs ht fun a => ih a whole hf
  | askKeys hs ht _ ih => exact .askKeys hs ht fun a => ih a whole hf
  | resolve hh _ ih =>
    refine .resolve hh fun τ x later whole' hx => ih τ x later whole' hx whole' ?_
    exact fun υ a hυ => hf υ a (later.trans hυ)
  | look same _ ih => exact .look (fun τ hτ => congrArg (·.bind f) (same τ hτ)) (ih whole hf)

/-- The next query is steady from where the first one began. -/
theorem Runs.bind {q : Query ρ α} {f : α → Query ρ β} (hq : q.Runs σ) (whole : σ.IsWhole)
    (hf : ∀ a, (f a).Runs σ) : (q.bind f).Runs σ :=
  Steady.bind hq whole fun _ a later _ _ => (hf a).mono later

/-! ## §2. Joined queries -/

section

variable (whole : σ.IsWhole)
include whole

/-- Two queries in a row run where both do. -/
theorem Runs.andThen {q r : Query ρ Answer} (hq : q.Runs σ) (hr : r.Runs σ) :
    (q.andThen r).Runs σ := by
  refine hq.bind whole fun a => ?_
  split
  · exact hr
  · exact .done trivial

/-- A query for every element runs where those for the elements do. -/
theorem Runs.every {q : α → Query ρ Answer} {xs : List α} (h : ∀ x ∈ xs, (q x).Runs σ) :
    (every q xs).Runs σ := by
  induction xs with
  | nil => exact .done trivial
  | cons x xs ih =>
    exact (h x List.mem_cons_self).andThen whole (ih fun y hy => h y (List.mem_cons_of_mem x hy))

/-- A query for some element runs where those for the elements do. -/
theorem Runs.any {q : α → Query ρ Answer} {xs : List α} (h : ∀ x ∈ xs, (q x).Runs σ) :
    (any q xs).Runs σ := by
  induction xs with
  | nil => exact .done trivial
  | cons x xs ih =>
    have tail := ih fun y hy => h y (List.mem_cons_of_mem x hy)
    refine (h x List.mem_cons_self).bind whole fun a => ?_
    split
    · exact .done trivial
    · exact tail.bind whole fun b => .done trivial

/-- A search runs where its tests do. -/
theorem Runs.anyM {q : α → Query ρ Bool} {xs : List α} (h : ∀ x ∈ xs, (q x).Runs σ) :
    (xs.anyM q).Runs σ := by
  induction xs with
  | nil => exact .done trivial
  | cons x xs ih =>
    unfold List.anyM
    refine (h x List.mem_cons_self).bind whole fun b => ?_
    cases b with
    | true => exact .done trivial
    | false => exact ih fun y hy => h y (List.mem_cons_of_mem x hy)

/-- A test of all runs where its tests do. -/
theorem Runs.allM {q : α → Query ρ Bool} {xs : List α} (h : ∀ x ∈ xs, (q x).Runs σ) :
    (xs.allM q).Runs σ := by
  induction xs with
  | nil => exact .done trivial
  | cons x xs ih =>
    unfold List.allM
    refine (h x List.mem_cons_self).bind whole fun b => ?_
    cases b with
    | true => exact ih fun y hy => h y (List.mem_cons_of_mem x hy)
    | false => exact .done trivial

end

/-- To ask for a pair of the store runs. -/
theorem runs_related {s t : Handle} (hs : σ.Has s) (ht : σ.Has t) :
    (related s t : Query ρ Answer).Runs σ :=
  .ask hs ht fun _ => .done trivial

/-- A handle of the store resolves to one, in every later store too. -/
theorem steady_resolved {h : Handle} (hh : σ.Has h) :
    (resolved h : Query ρ Handle).Steady Has σ :=
  .resolve hh fun _ _ _ _ hx => .done hx

end Assignability.Query
