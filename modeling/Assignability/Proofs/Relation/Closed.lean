/-
  Assignability.Proofs.Relation.Closed
  ────────────────────────────────────
  **RELATIONS THAT JUSTIFY THEMSELVES.**

  A pair fits as soon as some relation has it and the rules justify every
  pair of that relation by the relation itself (`fits_of_closed`).  To see
  that they do, one looks at what is asked about a pair:

    • `justifies_of_lazy` — what the two sides stand for,
    • `justifies_alternatives` — every member of a source union,
    • `justifies_into_alternatives` — some member of a target union,
    • `justifies_into_intersection` — every member of a target
      intersection,
    • `justifies_intersection` — some member of a source intersection,
    • `justifies_branded` — the base of a source brand.

  In what order the rules are tried is of no account to these: each is
  about the side that it takes apart, whatever the other side is.  Read of
  the pairs that fit, they are `fits_alternatives` and so on.
-/
import Assignability.Proofs.Relation.Dispatch

namespace Assignability.View

variable {ρ : Type} {v : View ρ} {s t m : Handle} {source target : Node} {members : List Handle}
  {l : ListId} {keys fits : Handle → Handle → Bool}

/-! ## §1. Pairs that come back -/

open Classical in
/-- A relation that justifies itself is one of fitting pairs. -/
theorem fits_of_closed (P : Handle → Handle → Prop)
    (closed : ∀ fits : Handle → Handle → Bool, (∀ a b, P a b → fits a b = true) →
      ∀ a b, P a b → v.justifies v.keysFit fits a b = true)
    (h : P s t) : v.Fits s t := by
  refine ⟨fun a b => decide (P a b), fun a b hab => ?_, decide_eq_true h⟩
  exact closed _ (fun a b h => decide_eq_true h) a b (of_decide_eq_true hab)

/-- What fits is justified wherever it is granted. -/
theorem Fits.justifies (h : v.Fits s t)
    (granted : ∀ a b, v.Fits a b → fits a b = true) : v.justifies v.keysFit fits s t = true := by
  refine justifies_mono (fun _ _ _ => rfl) (fun a b _ hab => ?_) (fits_iff.1 h)
  exact granted a b (fits_eq_true.1 hab)

/-- And so is one that justifies itself together with what fits already. -/
theorem fits_of_closed_or (P : Handle → Handle → Prop)
    (closed : ∀ fits : Handle → Handle → Bool, (∀ a b, P a b ∨ v.Fits a b → fits a b = true) →
      ∀ a b, P a b → v.justifies v.keysFit fits a b = true)
    (h : P s t) : v.Fits s t := by
  refine fits_of_closed (fun a b => P a b ∨ v.Fits a b) (fun fits granted a b hab => ?_) (.inl h)
  rcases hab with hab | hab
  · exact closed fits granted a b hab
  · exact hab.justifies fun x y hxy => granted x y (.inr hxy)

/-! ## §2. The step for a pair -/

/-- Where one side has parts, a pair is justified by its rule, or at once. -/
theorem justifies_of_step (hs : v.store.node? s = some source) (ht : v.store.node? t = some target)
    (parts : source.isLeaf = false ∨ target.isLeaf = false)
    (h : ((Query.step v.flags s t).eval v keys fits).isTrue = true) :
    v.justifies keys fits s t = true := by
  unfold justifies
  cases hb : v.store.atOnce? v.flags s t with
  | none => exact h
  | some b => exact eq_true_of_atOnce? hs ht parts hb

/-- For two nodes that are not lazy, that is the step between the nodes. -/
theorem justifies_of_nodes (hs : v.store.node? s = some source) (ht : v.store.node? t = some target)
    (ls : source.isLazy = false) (lt : target.isLazy = false)
    (parts : source.isLeaf = false ∨ target.isLeaf = false)
    (h : ((Query.nodes v.flags s t source target).eval v keys fits).isTrue = true) :
    v.justifies keys fits s t = true := by
  refine justifies_of_step hs ht parts ?_
  rw [eval_step_of_nodes hs ht ls lt]
  exact h

/-- A pair of which one side is lazy asks about what the two stand for. -/
theorem isTrue_eval_step_of_lazy (hs : v.store.node? s = some source)
    (ht : v.store.node? t = some target) (lazy : (source.isLazy || target.isLazy) = true)
    (keys fits : Handle → Handle → Bool) :
    ((Query.step v.flags s t).eval v keys fits).isTrue = fits (v.stands s) (v.stands t) := by
  unfold Query.step
  rw [Query.bind_eq, Query.eval_bind, Query.eval_store, hs, ht]
  dsimp only
  rw [if_pos lazy]
  exact Answer.isTrue_ofBool _

/-- A handle of a node that is not lazy stands for itself. -/
theorem stands_of_node (hs : v.store.node? s = some source) (notLazy : source.isLazy = false) :
    v.stands s = s := v.stands_of_not_lazy s (Store.lazyId?_of_notLazy hs notLazy)

/-- A lazy node is no leaf. -/
theorem isLeaf_of_isLazy {n : Node} (h : n.isLazy = true) : n.isLeaf = false := by
  cases n <;> first | rfl | cases h

/-- A lazy node is justified by what it stands for. -/
theorem justifies_of_lazy (hs : v.store.node? s = some source) (ht : v.store.node? t = some target)
    (lazy : (source.isLazy || target.isLazy) = true)
    (h : fits (v.stands s) (v.stands t) = true) : v.justifies keys fits s t = true := by
  refine justifies_of_step hs ht ?_ ?_
  · exact (Bool.or_eq_true_iff.1 lazy).imp isLeaf_of_isLazy isLeaf_of_isLazy
  · rw [isTrue_eval_step_of_lazy hs ht lazy]
    exact h

/-! ## §3. Taking a side apart -/

/-- Alternatives are justified one by one. -/
theorem justifies_alternatives (hs : v.store.node? s = some source)
    (ht : v.store.node? t = some target) (lt : target.isLazy = false)
    (ha : v.store.alternatives? source = some members)
    (h : ∀ m ∈ members, fits m t = true) : v.justifies keys fits s t = true := by
  have ls := isLazy_of_alternatives? ha
  refine justifies_of_nodes hs ht ls lt (.inl (isLeaf_of_alternatives? ha)) ?_
  unfold Query.nodes
  rw [Query.bind_eq, Query.eval_bind, Query.eval_store, ha]
  show ((Query.unionSource members t).eval v keys fits).isTrue = true
  unfold Query.unionSource
  rw [Query.isTrue_eval_every, List.all_eq_true]
  intro m hm
  rw [Query.eval_related, Answer.isTrue_ofBool]
  exact h m hm

/-- One alternative of the target is enough. -/
theorem justifies_into_alternatives (hs : v.store.node? s = some source)
    (ht : v.store.node? t = some target) (ls : source.isLazy = false)
    (hn : v.store.alternatives? source = none) (ha : v.store.alternatives? target = some members)
    (hm : m ∈ members) (h : fits s m = true) : v.justifies keys fits s t = true := by
  have lt := isLazy_of_alternatives? ha
  have member : ((Query.unionTarget s members).eval v keys fits).isTrue = true := by
    have some : members.any (fits s) = true := List.any_eq_true.2 ⟨m, hm, h⟩
    rw [Query.isTrue_eval_unionTarget, some, Bool.or_true, Bool.true_or]
  refine justifies_of_nodes hs ht ls lt (.inr (isLeaf_of_alternatives? ha)) ?_
  unfold Query.nodes
  rw [Query.bind_eq, Query.eval_bind, Query.eval_store, hn, ha]
  cases source with
  | intersection k =>
    show ((Query.intersectionToUnion _ _ _ _ _).eval v keys fits).isTrue = true
    rw [Query.isTrue_eval_intersectionToUnion, member, Bool.true_or]
  | _ => exact member

/-- An intersection in the target is justified member by member. -/
theorem justifies_into_intersection (hs : v.store.node? s = some source)
    (ht : v.store.node? t = some (.intersection l)) (ls : source.isLazy = false)
    (hn : v.store.alternatives? source = none)
    (h : ∀ m ∈ v.store.list l, fits s m = true) : v.justifies keys fits s t = true := by
  refine justifies_of_nodes hs ht ls rfl (.inr rfl) ?_
  have every : ((Query.intersectionTarget s (v.store.list l)).eval v keys fits).isTrue = true := by
    unfold Query.intersectionTarget
    rw [Query.isTrue_eval_every, List.all_eq_true]
    intro m hm
    rw [Query.eval_related, Answer.isTrue_ofBool]
    exact h m hm
  unfold Query.nodes
  rw [Query.bind_eq, Query.eval_bind, Query.eval_store, hn]
  cases source <;> exact every

/-- A target that is an intersection itself is taken apart first. -/
theorem justifies_intersection (hs : v.store.node? s = some (.intersection l))
    (ht : v.store.node? t = some target) (lt : target.isLazy = false)
    (it : target.kind ≠ .intersection) (hm : m ∈ v.store.list l) (h : fits m t = true) :
    v.justifies keys fits s t = true := by
  -- one member is enough, against a union as well as against anything else
  have member : ((Query.intersectionSource (v.store.list l) t target).eval v keys fits).isTrue
      = true := by
    have some : (v.store.list l).any (fits · t) = true := List.any_eq_true.2 ⟨m, hm, h⟩
    rw [Query.isTrue_eval_intersectionSource, some, Bool.true_or]
  refine justifies_of_nodes hs ht rfl lt (.inl rfl) ?_
  unfold Query.nodes
  rw [Query.bind_eq, Query.eval_bind, Query.eval_store]
  cases ha : v.store.alternatives? target with
  | some members =>
    show ((Query.intersectionToUnion _ _ _ _ _).eval v keys fits).isTrue = true
    rw [Query.isTrue_eval_intersectionToUnion, member, Bool.or_true]
  | none =>
    cases target with
    | intersection k => exact absurd rfl it
    | _ => exact member

/-- Of a branded source the base is compared with the target, or under one brand with its base. -/
theorem justifies_branded {base : Handle} {brand : Atom}
    (hs : v.store.node? s = some (.branded base brand)) (ht : v.store.node? t = some target)
    (lt : target.isLazy = false) (hn : v.store.alternatives? target = none)
    (it : target.kind ≠ .intersection)
    (whole : (∀ b, target ≠ .branded b brand) → fits base t = true)
    (bases : ∀ b, target = .branded b brand → fits base b = true) :
    v.justifies keys fits s t = true := by
  refine justifies_of_nodes hs ht rfl lt (.inl rfl) ?_
  have related : ∀ b, fits base b = true →
      ((Query.related base b).eval v keys fits).isTrue = true := by
    intro b hb
    rw [Query.eval_related, Answer.isTrue_ofBool]
    exact hb
  -- the brand is forgotten, unless the target has it too
  have forgotten : ((Query.brands (.branded base brand) target t).eval v keys fits).isTrue
      = true := by
    unfold Query.brands
    cases target with
    | branded b brand' =>
      dsimp only
      split
      · next same => exact related b (bases b (by rw [same]))
      · next other => exact related t (whole fun _ h => other (Node.branded.inj h).2.symm)
    | _ => exact related t (whole fun _ => nofun)
  unfold Query.nodes
  rw [Query.bind_eq, Query.eval_bind, Query.eval_store, hn]
  cases target with
  | intersection k => exact absurd rfl it
  | _ => exact forgotten

/-! ## §4. The same of the pairs that fit -/

/-- Alternatives that fit one by one fit together. -/
theorem fits_alternatives (hs : v.store.node? s = some source) (ht : v.store.node? t = some target)
    (lt : target.isLazy = false) (ha : v.store.alternatives? source = some members)
    (h : ∀ m ∈ members, v.Fits m t) : v.Fits s t := by
  apply fits_iff.2
  apply justifies_alternatives hs ht lt ha
  intro m hm
  exact fits_eq_true.2 (h m hm)

/-- What fits one alternative fits all of them together. -/
theorem fits_into_alternatives (hs : v.store.node? s = some source)
    (ht : v.store.node? t = some target) (ls : source.isLazy = false)
    (hn : v.store.alternatives? source = none) (ha : v.store.alternatives? target = some members)
    (hm : m ∈ members) (h : v.Fits s m) : v.Fits s t := by
  apply fits_iff.2
  apply justifies_into_alternatives hs ht ls hn ha hm
  exact fits_eq_true.2 h

end Assignability.View
