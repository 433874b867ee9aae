/-
  Assignability.Proofs.Relation.KeySet
  ────────────────────────────────────
  **THE KEYS OF A FINITE KEY TYPE.**

  A finite key type is asked for in three ways: which keys it lists, which
  names it admits, and of what sort its keys are; and a literal may be
  compared with it.  The four agree:

    • `admits_eq_of_keys?` — the names admitted are those of its keys,
    • `isCompatible_string_iff` — its sort goes with strings where all its
      keys are names,
    • `fits_iff_mem_keys?` — the strings that fit it are its keys,
    • `keys?_of_listsNames` — literals, enumerations and unions of string
      literals list these.
-/
import Assignability.Proofs.Query.Parallel
import Assignability.Proofs.Relation.Copy
import Assignability.Proofs.Relation.Leaf

namespace Assignability

variable {ρ : Type}

/-- The sort of a key. -/
def Key.sort : Key → KeySort
  | .name _ => .string
  | .number _ => .number

/-- A sort goes with strings where joining it adds nothing to them. -/
theorem KeySort.isCompatible_string (s : KeySort) :
    s.isCompatible .string = true ↔ s.join .string = .string := by
  cases s <;> decide

namespace View

variable {v : View ρ} {key x : Handle} {name : Atom} {keys : List (Key × Handle)} {n : Nat}

/-! ## §1. What is found out about a key type -/

/-- The keys of a key type with their literals, if it is finite, looked into `levels` deep. -/
def keysWithin? (v : View ρ) (levels : Nat) (key : Handle) : Option (List (Key × Handle)) :=
  (Query.keysWithin? levels key).eval v (fun _ _ => false) (fun _ _ => false)

/-- The keys of a key type with their literals, if it is finite. -/
def keys? (v : View ρ) (key : Handle) : Option (List (Key × Handle)) :=
  v.keysWithin? Key.nesting key

/-- The keys of a key type do not depend on the relation. -/
theorem eval_keys? (keys fits : Handle → Handle → Bool) (key : Handle) :
    (Query.keys? key).eval v keys fits = v.keys? key := by
  have quiet : (Query.keys? key).Quiet v ⟨fun _ _ => False, fun _ _ => False, fun _ => True⟩ _ :=
    Query.quiet_keys? fun _ _ => trivial
  exact quiet.eval_congr fun _ _ h => h.elim

/-- How a key type comes to list its keys. -/
inductive Listed (v : View ρ) (n : Nat) (key : Handle) (keys : List (Key × Handle)) : Prop
  | never (hn : v.store.node? key = some (.intrinsic .never)) (h : keys = [])
  | name {text : Atom} (hn : v.store.node? key = some (.literal (.string text)))
    (h : keys = [(.name text, key)])
  | number {value : Binary64} (hn : v.store.node? key = some (.literal (.number value)))
    (h : keys = [(.number value, key)])
  | members {node : Node} {members : List Handle} (hn : v.store.node? key = some node)
    (ha : v.store.alternatives? node = some members)
    (each : ∀ m ∈ members, (v.keysWithin? n m).isSome = true)
    (h : keys = members.flatMap fun m => (v.keysWithin? n m).getD [])
  | stands {d : LazyId} (hn : v.store.node? key = some (.lazy d))
    (h : v.keysWithin? n (v.stands key) = some keys)

/-- What is listed at a level follows the node of the key type. -/
theorem listed_of_keysWithin? (h : v.keysWithin? (n + 1) key = some keys) :
    v.Listed n key keys := by
  unfold keysWithin? Query.keysWithin? at h
  rw [Query.bind_eq, Query.eval_bind, Query.eval_store] at h
  cases hn : v.store.node? key with
  | none =>
    rw [hn] at h
    cases h
  | some node =>
    rw [hn] at h
    -- a union or an enumeration lists its keys only if each member does
    have members : ∀ {l : ListId}, v.store.alternatives? node = some (v.store.list l) →
        (Query.collect (Query.keysWithin? n) (v.store.list l)).eval v (fun _ _ => false)
          (fun _ _ => false) = some keys → v.Listed n key keys := by
      intro l ha h
      rw [Query.eval_collect] at h
      split at h
      · next each =>
        exact .members hn ha (List.all_eq_true.1 each) (Option.some.inj h).symm
      · cases h
    cases node with
    | intrinsic k =>
      cases k with
      | never => exact .never hn (Option.some.inj h).symm
      | _ => cases h
    | literal value =>
      cases value with
      | string text => exact .name hn (Option.some.inj h).symm
      | number value => exact .number hn (Option.some.inj h).symm
      | boolean | bigint => cases h
    | union l | enumeration l => exact members rfl h
    | lazy d => exact .stands hn h
    | _ => cases h

/-- What is among the keys of a union is among those of a member. -/
theorem mem_flatMap_keysWithin? {members : List Handle} {k : Key × Handle}
    (each : ∀ m ∈ members, (v.keysWithin? n m).isSome = true) :
    (k ∈ members.flatMap fun m => (v.keysWithin? n m).getD [])
      ↔ ∃ m ∈ members, ∃ part, v.keysWithin? n m = some part ∧ k ∈ part := by
  rw [List.mem_flatMap]
  constructor
  · rintro ⟨m, hm, hk⟩
    obtain ⟨part, hp⟩ := Option.isSome_iff_exists.1 (each m hm)
    rw [hp] at hk
    exact ⟨m, hm, part, hp, hk⟩
  · rintro ⟨m, hm, part, hp, hk⟩
    refine ⟨m, hm, ?_⟩
    rw [hp]
    exact hk

/-! ## §2. The names that are admitted -/

/-- The names that a finite key type admits are those of its keys. -/
theorem eval_admitsWithin_of_keysWithin? (n : Nat) : ∀ {key : Handle} {keys : List (Key × Handle)},
    v.keysWithin? n key = some keys →
    (Query.admitsWithin n key name).eval v (fun _ _ => false) (fun _ _ => false)
      = keys.any fun k => k.1.isNamed v.store name := by
  -- on the levels, which the list and the search go down together
  induction n with
  | zero => exact fun h => nomatch h
  | succ n ih =>
    intro key keys h
    unfold Query.admitsWithin
    rw [Query.bind_eq, Query.eval_bind, Query.eval_store]
    cases listed_of_keysWithin? h with
    | never hn h =>
      rw [hn, h]
      rfl
    | name hn h | number hn h =>
      rw [hn, h, List.any_cons, List.any_nil, Bool.or_false]
      rfl
    | stands hn h =>
      rw [hn]
      exact ih h
    | @members node members hn ha each h =>
      have anyMember : members.any (fun m => (Query.admitsWithin n m name).eval v (fun _ _ => false)
          (fun _ _ => false)) = keys.any fun k => k.1.isNamed v.store name := by
        rw [Bool.eq_iff_iff, List.any_eq_true, List.any_eq_true]
        simp only [h, mem_flatMap_keysWithin? each]
        constructor
        · rintro ⟨m, hm, admitted⟩
          obtain ⟨part, hp⟩ := Option.isSome_iff_exists.1 (each m hm)
          rw [ih hp, List.any_eq_true] at admitted
          obtain ⟨k, hk, named⟩ := admitted
          exact ⟨k, ⟨m, hm, part, hp, hk⟩, named⟩
        · rintro ⟨k, ⟨m, hm, part, hp, hk⟩, named⟩
          refine ⟨m, hm, ?_⟩
          rw [ih hp]
          exact List.any_eq_true.2 ⟨k, hk, named⟩
      rw [hn]
      cases node with
      | union l | enumeration l =>
        obtain rfl := Option.some.inj ha
        exact (Query.eval_anyM v _ _ _ _).trans anyMember
      | _ => cases ha

/-- A key type of listed keys admits the names among them. -/
theorem admits_eq_of_keys? (h : v.keys? key = some keys) (name : Atom) :
    v.admits key name = keys.any fun k => k.1.isNamed v.store name :=
  eval_admitsWithin_of_keysWithin? Key.nesting h

/-! ## §3. The sort of the keys -/

/-- A finite key type has a sort, which bounds the sorts of its keys and nothing else. -/
theorem exists_sort_of_keysWithin? (n : Nat) : ∀ {key : Handle} {keys : List (Key × Handle)},
    v.keysWithin? n key = some keys → ∃ s,
      (Query.sortWithin? n key).eval v (fun _ _ => false) (fun _ _ => false) = some s ∧
      ∀ u, s.join u = u ↔ ∀ k ∈ keys, k.1.sort.join u = u := by
  induction n with
  | zero => exact fun h => nomatch h
  | succ n ih =>
    intro key keys h
    unfold Query.sortWithin?
    rw [Query.bind_eq, Query.eval_bind, Query.eval_store]
    cases listed_of_keysWithin? h with
    | never hn h =>
      subst h
      rw [hn]
      exact ⟨.empty, rfl, fun u => iff_of_true rfl nofun⟩
    | name hn h =>
      subst h
      rw [hn]
      exact ⟨.string, rfl, fun u => by rw [List.forall_mem_singleton]; exact Iff.rfl⟩
    | number hn h =>
      subst h
      rw [hn]
      exact ⟨.number, rfl, fun u => by rw [List.forall_mem_singleton]; exact Iff.rfl⟩
    | stands hn h =>
      rw [hn]
      exact ih h
    | @members node members hn ha each h =>
      -- the sort of a union is the join of those of its members
      have sorts : ∀ m ∈ members, ((Query.sortWithin? n m).eval v (fun _ _ => false)
          (fun _ _ => false)).isSome = true := by
        intro m hm
        obtain ⟨part, hp⟩ := Option.isSome_iff_exists.1 (each m hm)
        obtain ⟨s, hs, -⟩ := ih hp
        rw [hs]
        rfl
      have joined : ∃ s, (Query.joinSorts (Query.sortWithin? n) .empty members).eval v
          (fun _ _ => false) (fun _ _ => false) = some s ∧
          ∀ u, s.join u = u ↔ ∀ k ∈ keys, k.1.sort.join u = u := by
        rw [Query.eval_joinSorts, if_pos (List.all_eq_true.2 sorts)]
        refine ⟨_, rfl, fun u => ?_⟩
        rw [KeySort.foldl_join_eq_iff, h]
        simp only [mem_flatMap_keysWithin? each]
        constructor
        · rintro ⟨-, below⟩ k ⟨m, hm, part, hp, hk⟩
          obtain ⟨s, hs, bounds⟩ := ih hp
          have bound := below m hm
          rw [hs] at bound
          exact (bounds u).1 bound k hk
        · intro below
          refine ⟨rfl, fun m hm => ?_⟩
          obtain ⟨part, hp⟩ := Option.isSome_iff_exists.1 (each m hm)
          obtain ⟨s, hs, bounds⟩ := ih hp
          rw [hs]
          exact (bounds u).2 fun k hk => below k ⟨m, hm, part, hp, hk⟩
      rw [hn]
      cases node with
      | union l | enumeration l =>
        obtain rfl := Option.some.inj ha
        exact joined
      | _ => cases ha

/-- The sort of a finite key type goes with strings where all its keys are names. -/
theorem isCompatible_string_iff (h : v.keys? key = some keys) : ∃ s, v.sort? key = some s ∧
    (s.isCompatible .string = true ↔ ∀ k ∈ keys, ∃ text, k.1 = .name text) := by
  obtain ⟨s, hs, bounds⟩ := exists_sort_of_keysWithin? Key.nesting h
  refine ⟨s, hs, ?_⟩
  rw [KeySort.isCompatible_string, bounds]
  refine forall₂_congr fun k _ => ?_
  cases k.1 with
  | name text => exact iff_of_true rfl ⟨text, rfl⟩
  | number value => exact iff_of_false nofun fun ⟨_, h⟩ => nomatch h

/-- Keys that are names, and at least one, are of the sort of strings. -/
theorem sort?_of_names (h : v.keys? key = some keys) (nonempty : keys ≠ [])
    (each : ∀ k ∈ keys, ∃ text, k.1 = .name text) : v.sort? key = some .string := by
  obtain ⟨s, hs, bounds⟩ := exists_sort_of_keysWithin? Key.nesting h
  have sorts : ∀ k ∈ keys, k.1.sort = .string := by
    intro k hk
    obtain ⟨text, named⟩ := each k hk
    rw [named]
    rfl
  have below : s.join .string = .string := (bounds .string).2 fun k hk => by rw [sorts k hk]; rfl
  have notEmpty : s ≠ .empty := by
    rintro rfl
    obtain ⟨k, hk⟩ := List.exists_mem_of_ne_nil keys nonempty
    -- what has no keys lies below the sort of numbers as well
    have other := (bounds .number).1 rfl k hk
    rw [sorts k hk] at other
    cases other
  refine hs.trans (congrArg some ?_)
  cases s with
  | string => rfl
  | empty => exact absurd rfl notEmpty
  | _ => cases below

/-! ## §4. Strings that fit -/

/-- The literals of the keys. -/
theorem node?_of_mem_keysWithin? (n : Nat) : ∀ {key : Handle} {keys : List (Key × Handle)},
    v.keysWithin? n key = some keys → ∀ k ∈ keys, ∀ text, k.1 = .name text
      ↔ v.store.node? k.2 = some (.literal (.string text)) := by
  -- on the levels; the key that is listed is that of a literal at the bottom
  induction n with
  | zero => exact fun h => nomatch h
  | succ n ih =>
    intro key keys h k hk text
    cases listed_of_keysWithin? h with
    | never hn h =>
      rw [h] at hk
      cases hk
    | @name text' hn h =>
      rw [h, List.mem_singleton] at hk
      subst hk
      rw [hn]
      constructor
      · intro same
        rw [Key.name.inj same]
      · intro same
        exact congrArg Key.name (Literal.string.inj (Node.literal.inj (Option.some.inj same)))
    | number hn h =>
      rw [h, List.mem_singleton] at hk
      subst hk
      rw [hn]
      exact iff_of_false nofun nofun
    | members hn ha each h =>
      rw [h, mem_flatMap_keysWithin? each] at hk
      obtain ⟨m, hm, part, hp, hk⟩ := hk
      exact ih hp k hk text
    | stands hn h => exact ih h k hk text

/-- A key that is a name comes from a string literal. -/
theorem node?_of_mem_keys? (h : v.keys? key = some keys) {k : Key × Handle} (hk : k ∈ keys)
    (text : Atom) : k.1 = .name text ↔ v.store.node? k.2 = some (.literal (.string text)) :=
  node?_of_mem_keysWithin? Key.nesting h k hk text

/-- A string fits a literal where it is that literal, and the empty type nowhere. -/
theorem fits_leaf_iff {text : Atom} (hx : v.store.node? x = some (.literal (.string text)))
    {node : Node} (hn : v.store.node? key = some node)
    (single : node = .intrinsic .never ∨ ∃ value, node = .literal value) :
    v.Fits x key ↔ key = x := by
  refine ⟨fun h => ?_, fun h => h ▸ .refl _⟩
  have shape : node.isLazy = false ∧ v.store.alternatives? node = none ∧
      node.kind ≠ .intersection := by
    rcases single with rfl | ⟨value, rfl⟩ <;> exact ⟨rfl, rfl, fun h => nomatch h⟩
  -- no built-in type but the empty one is among these
  have only : ∀ k : Intrinsic, key = k.handle → k = .never := by
    rintro k rfl
    obtain rfl := Option.some.inj (hn.symm.trans (v.store.node?_handle k))
    rcases single with same | ⟨value, same⟩
    · exact Node.intrinsic.inj same
    · cases same
  rcases cases_of_fits_literal hx h hn shape.1 shape.2.1 shape.2.2 with top | same | ⟨k, same, fits⟩
  · rcases top with same | same
    · cases only .unknown same
    · cases only .any same
  · exact same
  · obtain rfl := only k same
    cases fits

/-- The strings that fit a finite key type are its keys. -/
theorem fits_iff_mem_keysWithin? {text : Atom}
    (hx : v.store.node? x = some (.literal (.string text))) (n : Nat) :
    ∀ {key : Handle} {keys : List (Key × Handle)}, v.keysWithin? n key = some keys →
      (v.Fits x key ↔ ∃ k ∈ keys, k.2 = x) := by
  -- on the levels: a text fits a union as it fits a member, and a lazy node as what it stands for
  induction n with
  | zero =>
    intro key keys h
    cases h
  | succ n ih =>
    intro key keys h
    cases listed_of_keysWithin? h with
    | never hn h =>
      rw [h, fits_leaf_iff hx hn (.inl rfl)]
      refine iff_of_false ?_ (by simp)
      rintro rfl
      cases hx.symm.trans hn
    | name hn h | number hn h =>
      rw [h, fits_leaf_iff hx hn (.inr ⟨_, rfl⟩)]
      simp
    | stands hn h => exact ((isLeafOf_literal hx).fits_lazy_iff hn).trans (ih h)
    | @members node members hn ha each h =>
      rw [fits_literal_alternatives_iff hx hn ha]
      simp only [h, mem_flatMap_keysWithin? each]
      constructor
      · rintro ⟨m, hm, fits⟩
        obtain ⟨part, hp⟩ := Option.isSome_iff_exists.1 (each m hm)
        obtain ⟨k, hk, same⟩ := (ih hp).1 fits
        exact ⟨k, ⟨m, hm, part, hp, hk⟩, same⟩
      · rintro ⟨k, ⟨m, hm, part, hp, hk⟩, same⟩
        exact ⟨m, hm, (ih hp).2 ⟨k, hk, same⟩⟩

/-- A string literal fits a key type exactly where it lists that name. -/
theorem fits_iff_mem_keys? {text : Atom} (hx : v.store.node? x = some (.literal (.string text)))
    (h : v.keys? key = some keys) : v.Fits x key ↔ ∃ k ∈ keys, k.1 = .name text := by
  rw [fits_iff_mem_keysWithin? hx Key.nesting h]
  constructor
  · rintro ⟨k, hk, rfl⟩
    exact ⟨k, hk, (node?_of_mem_keys? h hk text).2 hx⟩
  · rintro ⟨k, hk, named⟩
    exact ⟨k, hk, Store.node?_injective ((node?_of_mem_keys? h hk text).1 named) hx⟩

end View

/-! ## §5. Lists of strings -/

/-- The names that a key type lists as a literal, an enumeration or a union of string literals. -/
def Store.ListsNames (σ : Store ρ) (key : Handle) (names : List Atom) : Prop :=
  ∃ literals, (literals = [key] ∨
      ∃ n, σ.node? key = some n ∧ σ.alternatives? n = some literals) ∧
    List.Forall₂ (fun h name => σ.node? h = some (.literal (.string name))) literals names

namespace View

variable {v : View ρ} {key x : Handle} {names : List Atom}

/-- A string literal lists itself. -/
theorem keysWithin?_literal {name : Atom} (n : Nat)
    (hx : v.store.node? x = some (.literal (.string name))) :
    v.keysWithin? (n + 1) x = some [(.name name, x)] := by
  unfold keysWithin? Query.keysWithin?
  rw [Query.bind_eq, Query.eval_bind, Query.eval_store, hx]
  rfl

/-- **A LIST OF STRINGS AS A KEY TYPE HAS THEM AS ITS KEYS.** -/
theorem keysWithin?_of_listsNames (n : Nat) (h : v.store.ListsNames key names) :
    ∃ keys, v.keysWithin? (n + 2) key = some keys ∧ keys.map (·.1) = names.map Key.name := by
  obtain ⟨literals, form, each⟩ := h
  rcases form with rfl | ⟨node, hn, ha⟩
  · cases each with
    | cons hx none =>
      cases none
      exact ⟨_, keysWithin?_literal _ hx, rfl⟩
  · obtain ⟨found, names'⟩ : (∀ m ∈ literals, (v.keysWithin? (n + 1) m).isSome = true) ∧
        (literals.flatMap fun m => (v.keysWithin? (n + 1) m).getD []).map (·.1)
          = names.map Key.name := by
      clear ha
      -- each of the literals lists its own name, in their order
      induction each with
      | nil => exact ⟨nofun, rfl⟩
      | cons hx _ ih =>
        rw [List.forall_mem_cons, List.flatMap_cons, List.map_append, ih.2, keysWithin?_literal n hx]
        exact ⟨⟨rfl, ih.1⟩, rfl⟩
    have listed : (Query.collect (Query.keysWithin? (n + 1)) literals).eval v (fun _ _ => false)
        (fun _ _ => false)
          = some (literals.flatMap fun m => (v.keysWithin? (n + 1) m).getD []) := by
      rw [Query.eval_collect]
      exact if_pos (List.all_eq_true.2 found)
    refine ⟨_, ?_, names'⟩
    rw [← listed]
    unfold keysWithin? Query.keysWithin?
    rw [Query.bind_eq, Query.eval_bind, Query.eval_store, hn]
    cases node with
    | union l | enumeration l =>
      obtain rfl := Option.some.inj ha
      rfl
    | _ => cases ha

/-- A key type that lists names has just these as keys. -/
theorem keys?_of_listsNames (h : v.store.ListsNames key names) :
    ∃ keys, v.keys? key = some keys ∧ keys.map (·.1) = names.map Key.name :=
  keysWithin?_of_listsNames 15 h

end View

end Assignability
