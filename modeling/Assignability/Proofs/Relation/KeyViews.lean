/-
  Assignability.Proofs.Relation.KeyViews
  ──────────────────────────────────────
  **TWO VIEWS OF A FINITE KEY TYPE.**

  A rule may list the keys of a key type, or ask whether a name is among
  them.  Both walk through the key type, to the same depth; resolvers may
  be carried out on the way and build.  As long as the name was not found,
  the second walk is where the first one is, so it comes to the same
  nodes, in the same stores (`Searches.within`).  That goes for every store:
  also for one with cycles, or with nodes that speak of what is not there.

  In an orderly store the keys are listed alike ever after, so a name may
  be asked for at any later time.

  Main statement: `key_views_agree`.
-/
import Assignability.Proofs.Checker.Replay
import Assignability.Proofs.Relation.KeySet
import Assignability.Proofs.Store.Naming

namespace Assignability

variable {ρ α β : Type} {run : Runner ρ} {related related' : Handle → Handle → Inquire ρ Answer}

/-! ## §1. Walks without questions -/

namespace Query

/-- A query that asks no question: it reads, and resolves lazy nodes. -/
inductive Silent : Query ρ α → Prop
  | done (a : α) : Silent (.done a)
  | resolve {h : Handle} {next : Handle → Query ρ α} (hn : ∀ x, Silent (next x)) :
    Silent (.resolve h next)
  | look {next : Store ρ → Query ρ α} (hn : ∀ σ, Silent (next σ)) : Silent (.look next)

/-- A silent query that goes on silently is silent. -/
theorem Silent.bind {q : Query ρ α} {f : α → Query ρ β} (hq : q.Silent)
    (hf : ∀ a, (f a).Silent) : (q.bind f).Silent := by
  induction hq with
  | done a => exact hf a
  | resolve _ ih => exact .resolve ih
  | look _ ih => exact .look ih

variable (related related') in
/-- Who would answer the questions, and with which checker, is all the same. -/
theorem Silent.answer_eq {q : Query ρ α} (hq : q.Silent) (c c' : Checker) (σ : Store ρ) :
    answer run related' q ⟨σ, c'⟩
      = ((answer run related q ⟨σ, c⟩).1, ⟨(answer run related q ⟨σ, c⟩).2.store, c'⟩) := by
  induction hq generalizing σ with
  | done a => rfl
  | resolve _ ih => exact ih _ _
  | look _ ih => exact ih σ σ

/-- To collect in silence is silent. -/
theorem silent_collect {q : α → Query ρ (Option (List β))} (hq : ∀ x, (q x).Silent)
    (xs : List α) : (collect q xs).Silent := by
  induction xs with
  | nil => exact .done _
  | cons x xs ih =>
    refine (hq x).bind fun found => ?_
    cases found with
    | none => exact .done _
    | some found => exact ih.bind fun rest => .done _

/-- To list keys is silent, at every level. -/
theorem silent_keysWithin? (n : Nat) : ∀ key : Handle,
    (keysWithin? n key : Query ρ (Option (List (Key × Handle)))).Silent := by
  induction n with
  | zero => exact fun _ => .done _
  | succ n ih =>
    intro key
    refine .look fun σ => ?_
    dsimp only [Query.bind]
    split
    · exact .done _
    · exact .done _
    · exact .done _
    · exact silent_collect ih _
    · exact silent_collect ih _
    · exact .resolve ih
    · exact .done _

end Query

/-! ## §2. Two walks side by side -/

/-- The literal that a key is. -/
def Key.literal : Key → Literal
  | name text => .string text
  | number value => .number value

/-- Some key of a list is named as before when the store grows. -/
theorem Key.any_isNamed_eq {σ τ : Store ρ} (later : σ.Grows τ) {name : Atom}
    (spelled : σ.Spells name) (keys : List (Key × Handle)) :
    (keys.any fun k => k.1.isNamed τ name) = keys.any fun k => k.1.isNamed σ name :=
  congrArg keys.any (funext fun k => k.1.isNamed_eq later spelled)

namespace Query

/-- From the state `w` keys were listed, which led to `w'`; the search for a name from `w` came to
`found`.  The search tells whether the name is that of a listed key, and where it was in vain it led
to the same state. -/
structure Agrees (name : Atom) (keys : List (Key × Handle)) (w w' : Inquiry ρ)
    (found : Bool × Inquiry ρ) : Prop where
  later : w.store.Grows w'.store
  literals : ∀ k ∈ keys, w'.store.node? k.2 = some (.literal k.1.literal)
  verdict : w.store.Spells name → found.1 = keys.any fun k => k.1.isNamed w.store name
  inVain : found.1 = false → found.2 = w'

variable (run related) in
/-- Wherever the one query lists keys, the other one searches them. -/
def Searches (name : Atom) (listing : Query ρ (Option (List (Key × Handle))))
    (search : Query ρ Bool) : Prop :=
  ∀ w keys, (answer run related listing w).1 = some keys →
    Agrees name keys w (answer run related listing w).2 (answer run related search w)

variable {name : Atom}

/-- Where there is nothing to list, nothing is found. -/
theorem Agrees.nothing (w : Inquiry ρ) : Agrees name [] w w (false, w) where
  later := .refl _
  literals := fun _ hk => absurd hk List.not_mem_nil
  verdict := fun _ => rfl
  inVain := fun _ => rfl

/-- What is listed in two parts is searched in the first one, and where that is in vain in the
second one. -/
theorem Agrees.append {part rest : List (Key × Handle)} {w w₁ w₂ : Inquiry ρ}
    {found found' : Bool × Inquiry ρ} (head : Agrees name part w w₁ found)
    (tail : Agrees name rest w₁ w₂ found') :
    Agrees name (part ++ rest) w w₂ (if found.1 = true then found else found') where
  later := head.later.trans tail.later
  literals := by
    intro k hk
    rcases List.mem_append.1 hk with hk | hk
    · exact tail.later.node? (head.literals k hk)
    · exact tail.literals k hk
  verdict := by
    intro spelled
    rw [List.any_append, ← head.verdict spelled, ← Key.any_isNamed_eq head.later spelled,
      ← tail.verdict (head.later.spells spelled)]
    split
    · next h => rw [h, Bool.true_or]
    · next h => rw [Bool.eq_false_iff.2 h, Bool.false_or]
  inVain := by
    split
    · next h =>
      intro h'
      rw [h] at h'
      cases h'
    · exact fun _ => tail.inVain ‹_›

/-- All of a list is listed where its first element is, and then the others. -/
theorem answer_collect_cons {listing : Handle → Query ρ (Option (List (Key × Handle)))}
    {x : Handle} {xs : List Handle} {w : Inquiry ρ} {keys : List (Key × Handle)}
    (h : (answer run related (collect listing (x :: xs)) w).1 = some keys) :
    ∃ part rest, part ++ rest = keys ∧ (answer run related (listing x) w).1 = some part ∧
      answer run related (collect listing xs) (answer run related (listing x) w).2
        = (some rest, (answer run related (collect listing (x :: xs)) w).2) := by
  rw [collect, bind_eq, answer_bind] at h ⊢
  generalize answer run related (listing x) w = listed at h ⊢
  obtain ⟨part, w₁⟩ := listed
  cases part with
  | none => cases h
  | some part =>
    dsimp only at h ⊢
    rw [bind_eq, answer_bind] at h ⊢
    generalize answer run related (collect listing xs) w₁ = listed at h ⊢
    obtain ⟨rest, w₂⟩ := listed
    cases rest with
    | none => cases h
    | some rest => exact ⟨part, rest, Option.some.inj h, rfl, rfl⟩

/-- A search is answered by its first test, or goes on behind it. -/
theorem answer_anyM_cons {search : Handle → Query ρ Bool} {x : Handle} {xs : List Handle}
    {w : Inquiry ρ} : answer run related ((x :: xs).anyM search) w
      = if (answer run related (search x) w).1 = true then answer run related (search x) w
        else answer run related (xs.anyM search) (answer run related (search x) w).2 := by
  rw [List.anyM, bind_eq, answer_bind]
  generalize answer run related (search x) w = found
  obtain ⟨found, w₁⟩ := found
  cases found <;> rfl

/-- Lists one after the other are searched one after the other, up to the first with the name. -/
theorem Searches.collect {listing : Handle → Query ρ (Option (List (Key × Handle)))}
    {search : Handle → Query ρ Bool}
    (each : ∀ x, Searches run related name (listing x) (search x)) (xs : List Handle) :
    Searches run related name (Query.collect listing xs) (xs.anyM search) := by
  induction xs with
  | nil =>
    intro w keys h
    obtain rfl := Option.some.inj h
    exact .nothing w
  | cons x xs ih =>
    intro w keys h
    obtain ⟨part, rest, rfl, first, others⟩ := answer_collect_cons h
    have head := each x w part first
    have tail := ih _ rest (congrArg Prod.fst others)
    rw [others] at tail
    rw [answer_anyM_cons]
    -- where the first search is in vain, the others go on where the listing does
    have goesOn : (answer run related (search x) w).1 = false →
        answer run related (xs.anyM search) (answer run related (search x) w).2
          = answer run related (xs.anyM search) (answer run related (listing x) w).2 :=
      fun inVain => by rw [head.inVain inVain]
    have both := head.append tail
    split
    · next h => rwa [if_pos h] at both
    · next h =>
      rw [if_neg h] at both
      rwa [goesOn (Bool.eq_false_iff.2 h)]

/-- What a lazy node stands for is searched as it is listed. -/
theorem Searches.resolved (resolvers : run.Evolves)
    {listing : Handle → Query ρ (Option (List (Key × Handle)))} {search : Handle → Query ρ Bool}
    (each : ∀ x, Searches run related name (listing x) (search x)) (h : Handle) :
    Searches run related name ((Query.resolved h).bind listing)
      ((Query.resolved h).bind search) := by
  intro w keys listed
  have grows := (Store.evolves_resolve resolvers h w.store).grows
  obtain ⟨later, literals, verdict, inVain⟩ := each _ _ keys listed
  refine ⟨grows.trans later, literals, fun spelled => ?_, inVain⟩
  rw [← Key.any_isNamed_eq grows spelled]
  exact verdict (grows.spells spelled)

/-- **A FINITE KEY TYPE IS SEARCHED AS IT IS LISTED.** -/
theorem Searches.within (resolvers : run.Evolves) (n : Nat) : ∀ key : Handle,
    Searches run related name (keysWithin? n key) (admitsWithin n key name) := by
  -- on the levels; both views are written as one search over the node of the key type
  induction n with
  | zero => exact fun _ _ _ h => nomatch h
  | succ n ih =>
    intro key w keys h
    have read : answer run related Query.store w = (w.store, w) := rfl
    unfold keysWithin? at h
    unfold keysWithin? admitsWithin
    simp only [bind_eq, answer_bind, read] at h ⊢
    cases hn : w.store.node? key with
    | none =>
      rw [hn] at h
      cases h
    | some node =>
      rw [hn] at h
      -- a literal lists its own key and admits its own name
      have leaf : ∀ k : Key, node = .literal k.literal → keys = [(k, key)] →
          Agrees name keys w w (k.isNamed w.store name, w) := by
        rintro k rfl rfl
        refine ⟨.refl _, fun p hp => ?_, fun _ => ?_, fun _ => rfl⟩
        · obtain rfl := List.mem_singleton.1 hp
          exact hn
        · rw [List.any_cons, List.any_nil, Bool.or_false]
      cases node with
      | intrinsic k =>
        cases k with
        | never =>
          obtain rfl := Option.some.inj h
          exact .nothing w
        | _ => cases h
      | literal value =>
        cases value with
        | string text => exact leaf (.name text) rfl (Option.some.inj h).symm
        | number value => exact leaf (.number value) rfl (Option.some.inj h).symm
        | boolean | bigint => cases h
      | union l | enumeration l => exact Searches.collect ih (w.store.list l) w keys h
      | lazy d => exact Searches.resolved resolvers ih key w keys h
      | _ => cases h

end Query

/-! ## §3. Names and fields -/

section

variable {key h : Handle} {keys : List (Key × Handle)} {name : Atom} {σ : Store ρ}
  {w w' : Inquiry ρ}

/-- **KEYS THAT WERE LISTED ARE LISTED EVER AFTER.** -/
theorem Query.keys?_again (orderly : Store.Orderly run w.store) (hkey : w.store.Has key)
    (listed : answer run related (Query.keys? key) w = (some keys, w')) {τ : Store ρ}
    (later : w'.store.Extends τ) (c : Checker) :
    answer run related' (Query.keys? key) ⟨τ, c⟩ = (some keys, ⟨τ, c⟩) := by
  have silent : (Query.keys? key : Query ρ (Option (List (Key × Handle)))).Silent :=
    Query.silent_keysWithin? Key.nesting key
  -- by comparing, which is one way to answer, and can be repeated
  have first : answer run (check run) (Query.keys? key) ⟨w.store, c⟩
      = (some keys, ⟨w'.store, c⟩) := by
    rw [silent.answer_eq related (check run) w.checker c w.store]
    rw [listed]
  have repeated : Repeated run (answer run (check run) (Query.keys? key)) ⟨w.store, c⟩ :=
    repeated_answer (fun _ _ _ => repeated_check)
      (Query.steady_keys? orderly.whole hkey) ⟨w.store, c⟩ (.refl _) orderly
  have again : answer run (check run) (Query.keys? key) ⟨τ, c⟩ = (some keys, ⟨τ, c⟩) := by
    have replayed := repeated.replayed (by rw [first]; exact later)
    unfold Replayed at replayed
    rw [replayed, first]
  rw [silent.answer_eq (check run) related' c c τ, again]

/-- The literal of a key admits its names. -/
theorem Query.admits_of_literal {k : Key} (hn : w.store.node? h = some (.literal k.literal)) :
    (answer run related (Query.admits h name) w).1 = k.isNamed w.store name := by
  have read : answer run related Query.store w = (w.store, w) := rfl
  unfold Query.admits Key.nesting Query.admitsWithin
  simp only [Query.bind_eq, answer_bind, read, hn]
  cases k <;> rfl

/-- A key finds a field where one is called after it. -/
theorem Key.isSome_field?_iff (k : Key) (s : Layout) :
    (k.field? σ s).isSome = true ↔ ∃ f ∈ s.fields, k.isNamed σ f.name = true := by
  cases k with
  | name text =>
    show (s.fields.find? (·.name == text)).isSome = true ↔ _
    rw [List.find?_isSome]
    simp only [isNamed, beq_iff_eq, @eq_comm _ text]
  | number value => exact List.find?_isSome

/-- **THE TWO VIEWS OF A FINITE KEY TYPE AGREE.**  Keys are listed, by whatever checker: then the
key type admits the names of the listed keys and no others; and a listed key finds a field of an
object where the literal of the key alone admits the name of a field.  The name is asked for in the
store that the keys were listed in, whatever that holds and whatever resolvers build on the way; or,
in an orderly store, at any time after. -/
theorem key_views_agree (resolvers : run.Evolves) (key : Handle) (keys : List (Key × Handle))
    (w w' : Inquiry ρ) (listed : answer run related (Query.keys? key) w = (some keys, w')) :
    (∀ name, w.store.Spells name →
      (answer run related (Query.admits key name) w).1
        = keys.any fun k => k.1.isNamed w'.store name) ∧
    (Store.Orderly run w.store → w.store.Has key → ∀ u : Inquiry ρ, w'.store.Extends u.store →
      ∀ name, u.store.Spells name →
        (answer run related (Query.admits key name) u).1
          = keys.any fun k => k.1.isNamed u.store name) ∧
    ∀ k ∈ keys, ∀ u : Inquiry ρ, w'.store.Grows u.store → ∀ s : Layout,
      ((k.1.field? u.store s).isSome = true ↔
        ∃ f ∈ s.fields, (answer run related (Query.admits k.2 f.name) u).1 = true) := by
  -- for each name the listing and the search go the same way, and may resolve alike
  have searches : ∀ name, Query.Searches run related name (Query.keys? key)
      (Query.admits key name) := fun name => .within resolvers Key.nesting key
  have agrees := fun name => searches name w keys (by rw [listed])
  rw [listed] at agrees
  refine ⟨fun name spelled => ?_, fun orderly hkey u later name spelled => ?_, ?_⟩
  · rw [(agrees name).verdict spelled, Key.any_isNamed_eq (agrees name).later spelled]
  -- in a later store the keys are listed again, and nothing is left to resolve
  · have again : answer run related (Query.keys? key) u = (some keys, u) :=
      Query.keys?_again orderly hkey listed later u.checker
    exact (searches name u keys (by rw [again])).verdict spelled
  · intro k hk u later s
    have literal := later.node? ((agrees .none).literals k hk)
    simp only [Key.isSome_field?_iff, Query.admits_of_literal literal]

end

/-- A name, and a lazy node that stands for an enumeration of one number, in a union. -/
def nameOrLazyNumber : Listing Handle where
  nodes := [.literal (.string .none), .literal (.number ⟨0⟩), .enumeration ⟨0⟩, .lazy ⟨1⟩,
    .union ⟨1⟩]
  lists := [[⟨14⟩], [⟨13⟩, ⟨16⟩]]
  definitions := [⟨some ⟨15⟩, none⟩]

/-- The name is asked for before and after the lazy node was resolved, and looked for in an object
that has such a field. -/
theorem key_views_agree_nameOrLazyNumber :
    let keys := [(Key.name .none, Handle.mk 13), (Key.number ⟨0⟩, ⟨14⟩)]
    let w : Inquiry Handle := ⟨nameOrLazyNumber.store, .new {}⟩
    let w' := (answer pure (check pure) (Query.keys? ⟨17⟩) w).2
    (answer pure (check pure) (Query.keys? ⟨17⟩) w).1 = some keys ∧
      (answer pure (check pure) (Query.admits ⟨17⟩ .none) w).1 = true ∧
      (answer pure (check pure) (Query.admits ⟨17⟩ .none) w').1 = true ∧
      ((Key.name .none).field? w'.store { fields := [⟨.none, ⟨8⟩, false, false⟩] }).isSome
        = true := by
  intro keys w w'
  have listed : (answer pure (check pure) (Query.keys? ⟨17⟩) w).1 = some keys := by rfl
  have orderly : Store.Orderly pure w.store := nameOrLazyNumber.orderly (by decide +kernel)
  have spelled : w.store.Spells .none :=
    congrArg Option.isSome (Pool.resolve?_none (fun text => Pool.shardOf ⟨text.length⟩) [])
  obtain ⟨before, after, fields⟩ := key_views_agree (fun _ σ => .refl σ) ⟨17⟩ keys w w'
    (Prod.ext listed rfl)
  have agrees : Query.Agrees .none keys w w'
      (answer pure (check pure) (Query.admits ⟨17⟩ .none) w) :=
    Query.Searches.within (fun _ σ => .refl σ) Key.nesting ⟨17⟩ w keys listed
  refine ⟨listed, (before .none spelled).trans rfl, ?_, ?_⟩
  · exact (after orderly ⟨_, rfl⟩ w' (.refl _) .none (agrees.later.spells spelled)).trans rfl
  · refine (fields _ (.head _) w' (.refl _) _).2 ⟨_, .head _, ?_⟩
    decide +kernel

end Assignability
