/-
  Assignability.Proofs.Query.Parallel
  ───────────────────────────────────
  **TWO QUERIES SIDE BY SIDE.**

  A query may be put in two views, or two queries in a view each.  Where
  their parts come to related results, so do they (`Parallel.concur`), and
  loops need not go over their lists in one order: it is enough that the
  lists have the same elements, as the relation goes (`Matched`).  That
  holds of all loops of the rules, as each of them asks whether something
  is so of all elements or of one, or gathers what is a set again.
-/
import Assignability.Proofs.Query.Eval
import Mathlib.Data.List.Forall2
import Mathlib.Data.List.Sort

namespace Assignability

variable {ρ ρ' α β γ δ : Type}

/-! ## §1. Lists as sets -/

/-- The elements of one list are related to some of the other, and the other way round. -/
structure Matched (R : α → β → Prop) (as : List α) (bs : List β) : Prop where
  left : ∀ a ∈ as, ∃ b ∈ bs, R a b
  right : ∀ b ∈ bs, ∃ a ∈ as, R a b

namespace Matched

variable {R S : α → β → Prop} {as : List α} {bs : List β}

/-- A weaker relation matches where a stronger one does. -/
theorem imp (h : Matched R as bs) (hRS : ∀ a ∈ as, ∀ b ∈ bs, R a b → S a b) :
    Matched S as bs where
  left := fun a ha =>
    let ⟨b, hb, hab⟩ := h.left a ha
    ⟨b, hb, hRS a ha b hb hab⟩
  right := fun b hb =>
    let ⟨a, ha, hab⟩ := h.right b hb
    ⟨a, ha, hRS a ha b hb hab⟩

/-- Matched lists are matched the other way round as well. -/
theorem flip (h : Matched R as bs) : Matched (flip R) bs as := ⟨h.right, h.left⟩

theorem nil : Matched R [] [] := ⟨nofun, nofun⟩

/-- Related heads go before matched lists. -/
theorem cons {a : α} {b : β} (hab : R a b) (h : Matched R as bs) :
    Matched R (a :: as) (b :: bs) where
  left := by
    intro x hx
    rcases List.mem_cons.1 hx with rfl | hx
    · exact ⟨b, List.mem_cons_self, hab⟩
    · obtain ⟨y, hy, hxy⟩ := h.left x hx
      exact ⟨y, List.mem_cons_of_mem b hy, hxy⟩
  right := by
    intro y hy
    rcases List.mem_cons.1 hy with rfl | hy
    · exact ⟨a, List.mem_cons_self, hab⟩
    · obtain ⟨x, hx, hxy⟩ := h.right y hy
      exact ⟨x, List.mem_cons_of_mem a hx, hxy⟩

/-- Lists that are related one by one are matched. -/
theorem of_forall₂ (h : List.Forall₂ R as bs) : Matched R as bs := by
  induction h with
  | nil => exact .nil
  | cons hab _ ih => exact .cons hab ih

/-- Related options are matched as lists. -/
theorem toList {x : Option α} {y : Option β} (h : Option.Rel R x y) :
    Matched R x.toList y.toList := by
  cases h with
  | none => exact .nil
  | some h => exact .cons h .nil

/-- Functions that keep the relation keep the match. -/
theorem map {T : γ → δ → Prop} {f : α → γ} {g : β → δ} (h : Matched R as bs)
    (hRT : ∀ a ∈ as, ∀ b ∈ bs, R a b → T (f a) (g b)) : Matched T (as.map f) (bs.map g) where
  left := by
    intro c hc
    obtain ⟨a, ha, rfl⟩ := List.mem_map.1 hc
    obtain ⟨b, hb, hab⟩ := h.left a ha
    exact ⟨g b, List.mem_map_of_mem hb, hRT a ha b hb hab⟩
  right := by
    intro d hd
    obtain ⟨b, hb, rfl⟩ := List.mem_map.1 hd
    obtain ⟨a, ha, hab⟩ := h.right b hb
    exact ⟨f a, List.mem_map_of_mem ha, hRT a ha b hb hab⟩

/-- Matched lists are appended to matched lists. -/
theorem append {as' : List α} {bs' : List β} (h : Matched R as bs) (h' : Matched R as' bs') :
    Matched R (as ++ as') (bs ++ bs') where
  left := by
    intro a ha
    rcases List.mem_append.1 ha with ha | ha
    · obtain ⟨b, hb, hab⟩ := h.left a ha
      exact ⟨b, List.mem_append_left _ hb, hab⟩
    · obtain ⟨b, hb, hab⟩ := h'.left a ha
      exact ⟨b, List.mem_append_right _ hb, hab⟩
  right := by
    intro b hb
    rcases List.mem_append.1 hb with hb | hb
    · obtain ⟨a, ha, hab⟩ := h.right b hb
      exact ⟨a, List.mem_append_left _ ha, hab⟩
    · obtain ⟨a, ha, hab⟩ := h'.right b hb
      exact ⟨a, List.mem_append_right _ ha, hab⟩

/-- What is left of matched lists, by functions that agree, is matched. -/
theorem filterMap {T : γ → δ → Prop} {f : α → Option γ} {g : β → Option δ} (h : Matched R as bs)
    (hRT : ∀ a ∈ as, ∀ b ∈ bs, R a b → Option.Rel T (f a) (g b)) :
    Matched T (as.filterMap f) (bs.filterMap g) where
  left := by
    intro c hc
    obtain ⟨a, ha, hf⟩ := List.mem_filterMap.1 hc
    obtain ⟨b, hb, hab⟩ := h.left a ha
    have rel := hRT a ha b hb hab
    rw [hf] at rel
    generalize hg : g b = d at rel
    cases rel with
    | some hcd => exact ⟨_, List.mem_filterMap.2 ⟨b, hb, hg⟩, hcd⟩
  right := by
    intro d hd
    obtain ⟨b, hb, hg⟩ := List.mem_filterMap.1 hd
    obtain ⟨a, ha, hab⟩ := h.right b hb
    have rel := hRT a ha b hb hab
    rw [hg] at rel
    generalize hf : f a = c at rel
    cases rel with
    | some hcd => exact ⟨_, List.mem_filterMap.2 ⟨a, ha, hf⟩, hcd⟩

/-- Lists made for each element are matched, if those for related elements are. -/
theorem flatMap {T : γ → δ → Prop} {f : α → List γ} {g : β → List δ} (h : Matched R as bs)
    (hRT : ∀ a ∈ as, ∀ b ∈ bs, R a b → Matched T (f a) (g b)) :
    Matched T (as.flatMap f) (bs.flatMap g) where
  left := by
    intro c hc
    obtain ⟨a, ha, hf⟩ := List.mem_flatMap.1 hc
    obtain ⟨b, hb, hab⟩ := h.left a ha
    obtain ⟨d, hd, hcd⟩ := (hRT a ha b hb hab).left c hf
    exact ⟨d, List.mem_flatMap.2 ⟨b, hb, hd⟩, hcd⟩
  right := by
    intro d hd
    obtain ⟨b, hb, hg⟩ := List.mem_flatMap.1 hd
    obtain ⟨a, ha, hab⟩ := h.right b hb
    obtain ⟨c, hc, hcd⟩ := (hRT a ha b hb hab).right d hg
    exact ⟨c, List.mem_flatMap.2 ⟨a, ha, hc⟩, hcd⟩

/-- A test that comes to the same for related elements finds one in both lists or in none. -/
theorem any_eq (h : Matched R as bs) {p : α → Bool} {q : β → Bool}
    (same : ∀ a ∈ as, ∀ b ∈ bs, R a b → p a = q b) : as.any p = bs.any q := by
  rw [Bool.eq_iff_iff, List.any_eq_true, List.any_eq_true]
  constructor
  · rintro ⟨a, ha, hp⟩
    obtain ⟨b, hb, hab⟩ := h.left a ha
    exact ⟨b, hb, same a ha b hb hab ▸ hp⟩
  · rintro ⟨b, hb, hq⟩
    obtain ⟨a, ha, hab⟩ := h.right b hb
    exact ⟨a, ha, same a ha b hb hab ▸ hq⟩

/-- A test that comes to the same for related elements holds of all of both lists or of neither. -/
theorem all_eq (h : Matched R as bs) {p : α → Bool} {q : β → Bool}
    (same : ∀ a ∈ as, ∀ b ∈ bs, R a b → p a = q b) : as.all p = bs.all q := by
  rw [List.all_eq_not_any_not, List.all_eq_not_any_not,
    h.any_eq fun a ha b hb hab => congrArg not (same a ha b hb hab)]

/-- Matched lists are empty together. -/
theorem isEmpty_eq (h : Matched R as bs) : as.isEmpty = bs.isEmpty := by
  cases as with
  | nil =>
    cases bs with
    | nil => rfl
    | cons b bs => exact absurd (h.right b List.mem_cons_self) (by simp)
  | cons a as =>
    cases bs with
    | nil => exact absurd (h.left a List.mem_cons_self) (by simp)
    | cons b bs => rfl

/-- Lists in order that mirror one list are one list. -/
theorem eq_of_pairwise {R : α → β → Prop} {S : α → β → Prop} {r : β → β → Prop}
    [Std.Antisymm r] [Std.Irrefl r] {bs bs' : List β} (h : Matched R as bs) (h' : Matched S as bs')
    (unique : ∀ a ∈ as, ∀ b ∈ bs, ∀ b' ∈ bs', R a b → S a b' → b = b')
    (sorted : bs.Pairwise r) (sorted' : bs'.Pairwise r) : bs = bs' := by
  refine sorted.eq_of_mem_iff sorted' fun b => ⟨fun hb => ?_, fun hb => ?_⟩
  · obtain ⟨a, ha, hab⟩ := h.right b hb
    obtain ⟨b', hb', hab'⟩ := h'.left a ha
    rwa [unique a ha b hb b' hb' hab hab']
  · obtain ⟨a, ha, hab⟩ := h'.right b hb
    obtain ⟨b', hb', hab'⟩ := h.left a ha
    rwa [← unique a ha b' hb' b hb hab' hab]

end Matched

/-! ## §2. Related results -/

namespace Query

/-- Two queries come to related results, each in a view of its own. -/
def Parallel (v : View ρ) (v' : View ρ') (f f' : Handle → Handle → Bool) (R : α → β → Prop)
    (q : Query ρ α) (q' : Query ρ' β) : Prop :=
  R (q.eval v f f) (q'.eval v' f' f')

/-- Two queries come to the same, but for why what does not hold does not. -/
def Concur (v : View ρ) (v' : View ρ') (f f' : Handle → Handle → Bool) (q : Query ρ Answer)
    (q' : Query ρ' Answer) : Prop :=
  (q.eval v f f).isTrue = (q'.eval v' f' f').isTrue

variable {v : View ρ} {v' : View ρ'} {f f' : Handle → Handle → Bool} {R : α → β → Prop}
  {T : γ → δ → Prop}

/-- Two queries agree if they begin in parallel and go on with agreement. -/
theorem Parallel.concur {q : Query ρ α} {q' : Query ρ' β} {next : α → Query ρ Answer}
    {next' : β → Query ρ' Answer} (hq : Parallel v v' f f' R q q')
    (hn : ∀ a b, R a b → Concur v v' f f' (next a) (next' b)) :
    Concur v v' f f' (q.bind next) (q'.bind next') := by
  unfold Concur
  rw [eval_bind, eval_bind]
  exact hn _ _ hq

/-- Each looks into its own store. -/
theorem Parallel.read {next : Store ρ → Query ρ γ} {next' : Store ρ' → Query ρ' δ}
    (h : Parallel v v' f f' T (next v.store) (next' v'.store)) :
    Parallel v v' f f' T (Query.store.bind next) (Query.store.bind next') := h

/-- To look at the store is done in both. -/
theorem Concur.read {next : Store ρ → Query ρ Answer} {next' : Store ρ' → Query ρ' Answer}
    (h : Concur v v' f f' (next v.store) (next' v'.store)) :
    Concur v v' f f' (Query.store.bind next) (Query.store.bind next') := h

/-! ## §3. Joined answers -/

/-- A pair is asked for in both, with one answer. -/
theorem Concur.related {a b a' b' : Handle} (h : f a b = f' a' b') :
    Concur v v' f f' (related a b) (related a' b') :=
  congrArg (fun x => (Answer.ofBool x).isTrue) h

/-- Queries in a row agree where both do. -/
theorem Concur.andThen {q r : Query ρ Answer} {q' r' : Query ρ' Answer}
    (hq : Concur v v' f f' q q') (hr : Concur v v' f f' r r') :
    Concur v v' f f' (q.andThen r) (q'.andThen r') := by
  unfold Concur at *
  rw [isTrue_eval_andThen, isTrue_eval_andThen, hq, hr]

/-- Queries for every element agree on matched lists. -/
theorem Concur.every {q : α → Query ρ Answer} {q' : β → Query ρ' Answer} {as : List α}
    {bs : List β} (h : Matched R as bs)
    (each : ∀ a ∈ as, ∀ b ∈ bs, R a b → Concur v v' f f' (q a) (q' b)) :
    Concur v v' f f' (Query.every q as) (Query.every q' bs) := by
  unfold Concur
  rw [isTrue_eval_every, isTrue_eval_every]
  exact h.all_eq each

/-- Queries for some element agree on matched lists. -/
theorem Concur.any {q : α → Query ρ Answer} {q' : β → Query ρ' Answer} {as : List α}
    {bs : List β} (h : Matched R as bs)
    (each : ∀ a ∈ as, ∀ b ∈ bs, R a b → Concur v v' f f' (q a) (q' b)) :
    Concur v v' f f' (Query.any q as) (Query.any q' bs) := by
  unfold Concur
  rw [isTrue_eval_any, isTrue_eval_any]
  exact h.any_eq each

/-! ## §4. Other loops -/

/-- A search for an element evaluates to what the elements evaluate to. -/
theorem eval_anyM (v : View ρ) (keys fits : Handle → Handle → Bool) (q : α → Query ρ Bool)
    (as : List α) : (as.anyM q).eval v keys fits = as.any fun a => (q a).eval v keys fits := by
  induction as with
  | nil => rfl
  | cons a as ih =>
    unfold List.anyM
    rw [bind_eq, eval_bind, List.any_cons, ← ih]
    cases (q a).eval v keys fits <;> rfl

/-- A test of all elements evaluates to what the elements evaluate to. -/
theorem eval_allM (v : View ρ) (keys fits : Handle → Handle → Bool) (q : α → Query ρ Bool)
    (as : List α) : (as.allM q).eval v keys fits = as.all fun a => (q a).eval v keys fits := by
  induction as with
  | nil => rfl
  | cons a as ih =>
    unfold List.allM
    rw [bind_eq, eval_bind, List.all_cons, ← ih]
    cases (q a).eval v keys fits <;> rfl

/-- Searches agree on matched lists. -/
theorem Parallel.anyM {q : α → Query ρ Bool} {q' : β → Query ρ' Bool} {as : List α} {bs : List β}
    (h : Matched R as bs)
    (each : ∀ a ∈ as, ∀ b ∈ bs, R a b → Parallel v v' f f' Eq (q a) (q' b)) :
    Parallel v v' f f' Eq (as.anyM q) (bs.anyM q') := by
  unfold Parallel
  rw [eval_anyM, eval_anyM]
  exact h.any_eq each

/-- Tests of all elements agree on matched lists. -/
theorem Parallel.allM {q : α → Query ρ Bool} {q' : β → Query ρ' Bool} {as : List α} {bs : List β}
    (h : Matched R as bs)
    (each : ∀ a ∈ as, ∀ b ∈ bs, R a b → Parallel v v' f f' Eq (q a) (q' b)) :
    Parallel v v' f f' Eq (as.allM q) (bs.allM q') := by
  unfold Parallel
  rw [eval_allM, eval_allM]
  exact h.all_eq each

/-- What is collected is there where it is for every element. -/
theorem eval_collect (v : View ρ) (keys fits : Handle → Handle → Bool)
    (q : α → Query ρ (Option (List γ))) (as : List α) :
    (collect q as).eval v keys fits
      = if as.all fun a => ((q a).eval v keys fits).isSome then
          some (as.flatMap fun a => ((q a).eval v keys fits).getD [])
        else none := by
  -- along the elements; the first one without a list decides for all
  induction as with
  | nil => rfl
  | cons a as ih =>
    unfold collect
    rw [bind_eq, eval_bind, List.all_cons, List.flatMap_cons]
    cases (q a).eval v keys fits with
    | none => rfl
    | some found =>
      dsimp only
      rw [bind_eq, eval_bind, ih, Option.isSome_some, Bool.true_and, Option.getD_some]
      split <;> rfl

/-- Related options are there together. -/
theorem isSome_eq_of_rel {x : Option α} {y : Option β} (h : Option.Rel R x y) :
    x.isSome = y.isSome := by
  cases h <;> rfl

/-- Options of matched lists are matched where the empty list stands in for none. -/
theorem matched_getD_of_rel {x : Option (List γ)} {y : Option (List δ)}
    (h : Option.Rel (Matched T) x y) : Matched T (x.getD []) (y.getD []) := by
  cases h with
  | none => exact .nil
  | some h => exact h

/-- What is collected from matched lists is matched, or fails on both sides. -/
theorem Parallel.collect {q : α → Query ρ (Option (List γ))} {q' : β → Query ρ' (Option (List δ))}
    {as : List α} {bs : List β} (h : Matched R as bs)
    (each : ∀ a ∈ as, ∀ b ∈ bs, R a b →
      Parallel v v' f f' (Option.Rel (Matched T)) (q a) (q' b)) :
    Parallel v v' f f' (Option.Rel (Matched T)) (Query.collect q as) (Query.collect q' bs) := by
  unfold Parallel
  rw [eval_collect, eval_collect,
    h.all_eq fun a ha b hb hab => isSome_eq_of_rel (each a ha b hb hab)]
  split
  · exact .some (h.flatMap fun a ha b hb hab => matched_getD_of_rel (each a ha b hb hab))
  · exact .none

end Query

/-! ## §5. Sorts of keys -/

namespace KeySort

/-- A sort has the keys of two sorts where it has those of each. -/
theorem join_join_eq_iff (s t u : KeySort) :
    (s.join t).join u = u ↔ s.join u = u ∧ t.join u = u := by
  cases s <;> cases t <;> cases u <;> decide

/-- Key sorts that contain each other are equal. -/
theorem eq_of_join_eq {s t : KeySort} (h : s.join t = t) (h' : t.join s = s) : s = t := by
  revert h h'
  cases s <;> cases t <;> decide

/-- A join of sorts is within a sort exactly where each of them is. -/
theorem foldl_join_eq_iff (as : List α) (sort : α → KeySort) (s u : KeySort) :
    (as.foldl (fun s a => s.join (sort a)) s).join u = u
      ↔ s.join u = u ∧ ∀ a ∈ as, (sort a).join u = u := by
  induction as generalizing s with
  | nil => simp
  | cons a as ih => rw [List.foldl_cons, ih, join_join_eq_iff, List.forall_mem_cons, and_assoc]

/-- The sort of all elements depends on the set of their sorts. -/
theorem foldl_join_congr {R : α → β → Prop} {as : List α} {bs : List β} {sort : α → KeySort}
    {sort' : β → KeySort} (h : Matched R as bs)
    (same : ∀ a ∈ as, ∀ b ∈ bs, R a b → sort a = sort' b) (s : KeySort) :
    as.foldl (fun s a => s.join (sort a)) s = bs.foldl (fun s b => s.join (sort' b)) s := by
  have bounds : ∀ u, (∀ a ∈ as, (sort a).join u = u) ↔ ∀ b ∈ bs, (sort' b).join u = u := by
    intro u
    constructor
    · intro each b hb
      obtain ⟨a, ha, hab⟩ := h.right b hb
      exact same a ha b hb hab ▸ each a ha
    · intro each a ha
      obtain ⟨b, hb, hab⟩ := h.left a ha
      exact same a ha b hb hab ▸ each b hb
  have self : ∀ t : KeySort, t.join t = t := by
    intro t
    cases t <;> rfl
  -- each is below the other, as they have the same upper bounds
  apply eq_of_join_eq
  · rw [foldl_join_eq_iff, bounds, ← foldl_join_eq_iff]
    exact self _
  · rw [foldl_join_eq_iff, ← bounds, ← foldl_join_eq_iff]
    exact self _

end KeySort

namespace Query

variable {v : View ρ} {v' : View ρ'} {f f' : Handle → Handle → Bool}
  {R : Handle → Handle → Prop}

/-- A join of the sorts of key types evaluates to that of the evaluated sorts. -/
theorem eval_joinSorts (v : View ρ) (keys fits : Handle → Handle → Bool)
    (q : Handle → Query ρ (Option KeySort)) (hs : List Handle) (sort : KeySort) :
    (joinSorts q sort hs).eval v keys fits
      = if hs.all fun h => ((q h).eval v keys fits).isSome then
          some (hs.foldl (fun s h => s.join (((q h).eval v keys fits).getD .empty)) sort)
        else none := by
  induction hs generalizing sort with
  | nil => rfl
  | cons h hs ih =>
    unfold joinSorts
    rw [bind_eq, eval_bind, List.all_cons, List.foldl_cons]
    cases (q h).eval v keys fits with
    | none => rfl
    | some next =>
      dsimp only
      rw [ih, Option.isSome_some, Bool.true_and, Option.getD_some]

/-- The sorts of matched key types join to the same sort. -/
theorem Parallel.joinSorts {q : Handle → Query ρ (Option KeySort)}
    {q' : Handle → Query ρ' (Option KeySort)} {as bs : List Handle} (h : Matched R as bs)
    (each : ∀ a ∈ as, ∀ b ∈ bs, R a b → Parallel v v' f f' Eq (q a) (q' b)) (sort : KeySort) :
    Parallel v v' f f' Eq (Query.joinSorts q sort as) (Query.joinSorts q' sort bs) := by
  unfold Parallel
  rw [eval_joinSorts, eval_joinSorts,
    h.all_eq fun a ha b hb hab => congrArg Option.isSome (each a ha b hb hab),
    KeySort.foldl_join_congr h fun a ha b hb hab =>
      congrArg (·.getD .empty) (each a ha b hb hab)]

end Query

end Assignability
