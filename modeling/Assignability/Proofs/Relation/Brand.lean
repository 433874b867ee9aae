/-
  Assignability.Proofs.Relation.Brand
  ───────────────────────────────────
  **WHERE A BRAND IS FORGOTTEN.**

  The brand of a source is looked at after the unions and intersections of
  the target.  By then the target is taken apart, and the base is compared
  with a piece of it: some member of a union or an enumeration, every
  member of an intersection.  A base that fits the whole target only by
  being taken apart itself (a union by its members, an enumeration by its
  literals, the truth values) does not fit with a brand on it.

  Main statements:
    • `fits_branded_iff` — a branded source fits a target without lazy
      nodes where its base fits piece by piece (`FitsPiecewise`),
    • `relate_branded_iff` — and so the checker finds.
-/
import Assignability.Proofs.Checker.Finding
import Assignability.Proofs.Checker.Snapshot
import Assignability.Proofs.Relation.Dispatch
import Assignability.Proofs.Store.Listing

namespace Assignability

variable {ρ : Type}

/-! ## §1. Branded sources -/

/-- Whether a target is compared as a whole with the base of a source of that brand. -/
def Node.takesWhole (brand : Atom) : Node → Bool
  | .union _ | .enumeration _ | .intersection _ | .lazy _ => false
  | .branded _ b => b ≠ brand
  | _ => true

namespace View

/-- A source with a brand fits a target piece by piece. -/
inductive FitsPiecewise (v : View ρ) (s base : Handle) (brand : Atom) : Handle → Prop
  | top {t : Handle} (ht : t = .unknown ∨ t = .any) : FitsPiecewise v s base brand t
  | self : FitsPiecewise v s base brand s
  /-- Some member of a union, or some literal of an enumeration. -/
  | member {t m : Handle} {n : Node} {members : List Handle} (ht : v.store.node? t = some n)
    (hn : v.store.alternatives? n = some members) (hm : m ∈ members)
    (h : FitsPiecewise v s base brand m) : FitsPiecewise v s base brand t
  /-- Every member of an intersection. -/
  | every {t : Handle} {l : ListId} (ht : v.store.node? t = some (.intersection l))
    (h : ∀ m ∈ v.store.list l, FitsPiecewise v s base brand m) : FitsPiecewise v s base brand t
  /-- The two bases under one brand. -/
  | bases {t b : Handle} (ht : v.store.node? t = some (.branded b brand)) (h : v.Fits base b) :
    FitsPiecewise v s base brand t
  /-- The base, without its brand. -/
  | whole {t : Handle} {n : Node} (ht : v.store.node? t = some n)
    (hn : n.takesWhole brand = true) (h : v.Fits base t) : FitsPiecewise v s base brand t

variable {v : View ρ} {s t base : Handle} {brand : Atom}

/-- A branded source is decided at once against the top types and itself only. -/
theorem atOnce?_of_branded (hs : v.store.node? s = some (.branded base brand)) :
    v.store.atOnce? v.flags s t
      = if t = .unknown ∨ t = .any ∨ s = t then some true else none :=
  atOnce?_of_node hs (fun h => nomatch h) fun h => nomatch h

/-- A pair with a branded source that is not decided at once. -/
theorem fits_branded_iff_nodes (hs : v.store.node? s = some (.branded base brand)) {n : Node}
    (ht : v.store.node? t = some n) (lt : n.isLazy = false)
    (apart : ¬ (t = .unknown ∨ t = .any ∨ s = t)) :
    v.Fits s t ↔ ((Query.nodes v.flags s t (.branded base brand) n).eval v v.keysFit v.fits).isTrue
      = true :=
  fits_iff_nodes (by rw [atOnce?_of_branded hs, if_neg apart]) hs ht rfl lt

/-- Against a union a branded source must fit one member as a whole. -/
theorem fits_branded_member (hs : v.store.node? s = some (.branded base brand)) {n : Node}
    {members : List Handle} (ht : v.store.node? t = some n)
    (hn : v.store.alternatives? n = some members) (apart : ¬ (t = .unknown ∨ t = .any ∨ s = t)) :
    v.Fits s t ↔ ∃ m ∈ members, v.Fits s m := by
  have lt : n.isLazy = false := by
    cases n <;> first | rfl | cases hn
  have rule : (Query.nodes v.flags s t (.branded base brand) n).eval v v.keysFit v.fits
      = (Query.unionTarget s members).eval v v.keysFit v.fits := by
    unfold Query.nodes
    rw [Query.bind_eq, Query.eval_bind, Query.eval_store, hn]
    rfl
  have notBoolean : (s == Handle.boolean) = false :=
    beq_eq_false_iff_ne.2 (ne_handle_of_node hs (fun h => nomatch h) .boolean)
  rw [fits_branded_iff_nodes hs ht lt apart, rule, Query.isTrue_eval_unionTarget, notBoolean]
  -- a source that is a member of the union itself fits that member
  unfold Query.isMember
  rw [hs]
  simp only [Bool.or_false, Bool.false_and, Bool.or_eq_true, List.contains_iff_mem,
    List.any_eq_true, fits_eq_true]
  constructor
  · rintro (hm | h)
    · refine ⟨s, hm, (fits_of_atOnce? ?_).2 rfl⟩
      rw [atOnce?_of_branded hs, if_pos (.inr (.inr rfl))]
    · exact h
  · exact .inr

/-- Against an intersection it must fit every member. -/
theorem fits_branded_every (hs : v.store.node? s = some (.branded base brand)) {l : ListId}
    (ht : v.store.node? t = some (.intersection l)) (apart : ¬ (t = .unknown ∨ t = .any ∨ s = t)) :
    v.Fits s t ↔ ∀ m ∈ v.store.list l, v.Fits s m := by
  have rule : (Query.nodes v.flags s t (.branded base brand) (.intersection l)).eval v v.keysFit
      v.fits = (Query.intersectionTarget s (v.store.list l)).eval v v.keysFit v.fits := by
    unfold Query.nodes
    rw [Query.bind_eq, Query.eval_bind, Query.eval_store]
    rfl
  rw [fits_branded_iff_nodes hs ht rfl apart, rule]
  unfold Query.intersectionTarget
  rw [Query.isTrue_eval_every, List.all_eq_true]
  simp only [Query.eval_related, Answer.isTrue_ofBool, fits_eq_true]

/-- Against its own brand it fits where the bases do. -/
theorem fits_branded_bases (hs : v.store.node? s = some (.branded base brand)) {b : Handle}
    (ht : v.store.node? t = some (.branded b brand)) (apart : ¬ (t = .unknown ∨ t = .any ∨ s = t)) :
    v.Fits s t ↔ v.Fits base b := by
  have rule : (Query.nodes v.flags s t (.branded base brand) (.branded b brand)).eval v v.keysFit
      v.fits = (Query.related base b).eval v v.keysFit v.fits := by
    unfold Query.nodes
    rw [Query.bind_eq, Query.eval_bind, Query.eval_store]
    show (Query.brands _ _ t).eval v v.keysFit v.fits = _
    unfold Query.brands
    dsimp only
    rw [if_pos rfl]
  rw [fits_branded_iff_nodes hs ht rfl apart, rule, Query.eval_related, Answer.isTrue_ofBool,
    fits_eq_true]

/-- Against the other nodes it fits where its base does. -/
theorem fits_branded_whole (hs : v.store.node? s = some (.branded base brand)) {n : Node}
    (ht : v.store.node? t = some n) (hn : n.takesWhole brand = true)
    (apart : ¬ (t = .unknown ∨ t = .any ∨ s = t)) : v.Fits s t ↔ v.Fits base t := by
  have lt : n.isLazy = false := by
    cases n <;> first | rfl | cases hn
  have rule : (Query.nodes v.flags s t (.branded base brand) n).eval v v.keysFit v.fits
      = (Query.related base t).eval v v.keysFit v.fits := by
    unfold Query.nodes
    rw [Query.bind_eq, Query.eval_bind, Query.eval_store]
    cases n with
    | enumeration l | union l | intersection l | lazy d => cases hn
    | branded b c =>
      -- under another brand the target is taken with its brand
      show (Query.brands _ _ t).eval v v.keysFit v.fits = _
      have other : brand ≠ c := fun h => of_decide_eq_true hn h.symm
      unfold Query.brands
      dsimp only
      rw [if_neg other]
    | _ => rfl
  rw [fits_branded_iff_nodes hs ht lt apart, rule, Query.eval_related, Answer.isTrue_ofBool,
    fits_eq_true]

/-- **A BRAND IS FORGOTTEN PIECE BY PIECE.** -/
theorem fits_branded_iff (hs : v.store.node? s = some (.branded base brand))
    (ht : v.store.LazyFree t) : v.Fits s t ↔ v.FitsPiecewise s base brand t := by
  constructor
  · -- on how deep the target nests; the source stays as it is until a base is compared
    obtain ⟨n, hn⟩ := ht
    induction n generalizing t with
    | zero => cases hn
    | succ n ih =>
      intro h
      obtain ⟨notLazy, parts⟩ := Store.nests_succ.1 hn
      by_cases apart : t = .unknown ∨ t = .any ∨ s = t
      · rcases apart with h | h | rfl
        · exact .top (.inl h)
        · exact .top (.inr h)
        · exact .self
      · cases hm : v.store.node? t with
        | none =>
          refine absurd h (not_fits_of_no_node ?_ hm)
          rw [atOnce?_of_branded hs, if_neg apart]
        | some target =>
          have inner : ∀ m ∈ v.store.components target, v.Fits s m →
              v.FitsPiecewise s base brand m := by
            intro m hc
            exact ih (parts m (by rw [Store.parts_of_node hm]; exact hc))
          cases target with
          | enumeration l | union l =>
            obtain ⟨m, hl, hf⟩ := (fits_branded_member hs hm rfl apart).1 h
            exact .member hm rfl hl (inner m hl hf)
          | intersection l =>
            have every := (fits_branded_every hs hm apart).1 h
            exact .every hm fun m hl => inner m hl (every m hl)
          | lazy d =>
            rw [Store.lazyId?_of_node hm] at notLazy
            cases notLazy
          | branded b c =>
            by_cases hc : c = brand
            · subst hc
              exact .bases hm ((fits_branded_bases hs hm apart).1 h)
            · have hw : (Node.branded b c).takesWhole brand = true := decide_eq_true hc
              exact .whole hm hw ((fits_branded_whole hs hm hw apart).1 h)
          | _ => exact .whole hm rfl ((fits_branded_whole hs hm rfl apart).1 h)
  · clear ht
    intro h
    have atOnce : ∀ {t}, (t = .unknown ∨ t = .any ∨ s = t) → v.Fits s t := by
      intro t h
      refine (fits_of_atOnce? (b := true) ?_).2 rfl
      rw [atOnce?_of_branded hs, if_pos h]
    -- a rule need only be looked at where the pair is not decided at once
    have byRule : ∀ {t}, (¬ (t = .unknown ∨ t = .any ∨ s = t) → v.Fits s t) → v.Fits s t := by
      intro t h
      by_cases apart : t = .unknown ∨ t = .any ∨ s = t
      · exact atOnce apart
      · exact h apart
    induction h with
    | top h => exact atOnce (h.imp_right .inl)
    | self => exact atOnce (.inr (.inr rfl))
    | @member _ m _ _ hm hn hl _ ih =>
      exact byRule fun apart => (fits_branded_member hs hm hn apart).2 ⟨m, hl, ih⟩
    | every hm _ ih => exact byRule fun apart => (fits_branded_every hs hm apart).2 ih
    | bases hm h => exact byRule fun apart => (fits_branded_bases hs hm apart).2 h
    | whole hm hn h => exact byRule fun apart => (fits_branded_whole hs hm hn apart).2 h

/-- A target that is taken whole is fit by a branded source where the base fits it. -/
theorem fitsPiecewise_iff_of_takesWhole (hs : v.store.node? s = some (.branded base brand))
    {n : Node} (ht : v.store.node? t = some n) (hn : n.takesWhole brand = true) :
    v.FitsPiecewise s base brand t ↔ v.Fits base t := by
  constructor
  · intro h
    -- a target that takes the whole is neither split nor of the same brand
    cases h with
    | top h =>
      refine (fits_of_atOnce? (b := true) ?_).2 rfl
      unfold Store.atOnce?
      rw [if_pos (h.elim .inl fun h => .inr (.inr h))]
    | self =>
      obtain rfl := Option.some.inj (hs.symm.trans ht)
      exact absurd rfl (of_decide_eq_true hn)
    | member hm hl _ _ =>
      obtain rfl := Option.some.inj (ht.symm.trans hm)
      cases n with
      | enumeration l | union l => cases hn
      | _ => cases hl
    | every hm _ =>
      obtain rfl := Option.some.inj (hm.symm.trans ht)
      cases hn
    | bases hm _ =>
      obtain rfl := Option.some.inj (hm.symm.trans ht)
      exact absurd rfl (of_decide_eq_true hn)
    | whole _ _ h => exact h
  · exact .whole ht hn

end View

/-! ## §2. What the checker finds -/

/-- A branded node is at rest where its base is. -/
theorem Store.AtRest.branded {σ : Store ρ} {s base : Handle} {brand : Atom}
    (hs : σ.node? s = some (.branded base brand)) (hb : σ.AtRest base) : σ.AtRest s := by
  have notLazy : σ.lazyId? s = none := Store.lazyId?_of_notLazy hs rfl
  -- the node itself and what is at rest below its base are closed
  refine Store.AtRest.of_closed (P := fun h => h = s ∨ σ.AtRest h) ?_ ?_ ?_ (.inl rfl)
  · rintro h g (rfl | hh) hg
    · cases hg with
      | part hg =>
        rw [Store.parts_of_node hs] at hg
        obtain rfl := List.mem_singleton.1 hg
        exact .inr hb
      | recorded hd _ =>
        rw [notLazy] at hd
        cases hd
    · exact .inr (hh.of_leads hg)
  · rintro h d (rfl | hh) hd
    · rw [notLazy] at hd
      cases hd
    · exact hh.settled h d .refl hd
  · rintro h k (rfl | hh) hk
    · unfold Store.keyTypes at hk
      rw [hs] at hk
      cases hk
    · exact hh.keys h k .refl hk

/-- **WHERE A BRAND IS FORGOTTEN.**  A branded source is found to fit a target without lazy nodes
exactly where its base fits piece by piece; on a target that is taken whole it is found to fit where
its base is. -/
theorem relate_branded_iff (run : Runner ρ) (policy : Policy) (σ : Store ρ) (s base t : Handle)
    (brand : Atom) (hs : σ.node? s = some (.branded base brand)) (hb : σ.AtRest base)
    (ht : σ.LazyFree t)
    (within : (Store.relate run policy .assignable s t σ).1.exceeded = false) :
    ((Store.relate run policy .assignable s t σ).1.related = true
        ↔ (View.of run σ policy.flags).FitsPiecewise s base brand t) ∧
      ∀ n, σ.node? t = some n → n.takesWhole brand = true →
        (Store.relate run policy .assignable base t σ).1.exceeded = false →
        ((Store.relate run policy .assignable s t σ).1.related = true
          ↔ (Store.relate run policy .assignable base t σ).1.related = true) := by
  -- an assignable pair is asked in one direction only
  have forward : ∀ h, (View.of run σ policy.flags).Relates .assignable h t
      ↔ (View.of run σ policy.flags).Fits h t :=
    fun h => and_iff_left fun hk => by cases hk
  have found := (relate_iff (hb.branded hs) ht.atRest within).trans (forward s)
  have piecewise := View.fits_branded_iff (v := .of run σ policy.flags) hs ht
  rw [found, piecewise]
  refine ⟨Iff.rfl, fun n hn whole withinBase => ?_⟩
  rw [relate_iff hb ht.atRest withinBase, forward]
  exact View.fitsPiecewise_iff_of_takesWhole (v := .of run σ policy.flags) hs hn whole

/-- Strings or numbers, and the same with a brand. -/
def brandedUnion : Listing Handle where
  nodes := [.union ⟨0⟩, .branded ⟨13⟩ ⟨64⟩]
  lists := [[Intrinsic.string.handle, Intrinsic.number.handle]]

/-- The union fits itself; with a brand on it, it does not. -/
theorem not_fitsPiecewise_brandedUnion :
    (Store.relate pure {} .assignable ⟨13⟩ ⟨13⟩ brandedUnion.store).1
        = ⟨.assignable, true, false⟩ ∧
      (Store.relate pure {} .assignable ⟨14⟩ ⟨13⟩ brandedUnion.store).1
        = ⟨.assignable, false, false⟩ ∧
      ¬ (View.of pure brandedUnion.store {}).FitsPiecewise ⟨14⟩ ⟨13⟩ ⟨64⟩ ⟨13⟩ := by
  have base : (Store.relate pure {} .assignable ⟨13⟩ ⟨13⟩ brandedUnion.store).1
      = ⟨.assignable, true, false⟩ := by
    rw [relate_eq_finding]
    decide +kernel
  have branded : (Store.relate pure {} .assignable ⟨14⟩ ⟨13⟩ brandedUnion.store).1
      = ⟨.assignable, false, false⟩ := by
    rw [relate_eq_finding]
    decide +kernel
  have node : brandedUnion.store.node? ⟨14⟩ = some (.branded ⟨13⟩ ⟨64⟩) := by decide +kernel
  have free : brandedUnion.store.LazyFree ⟨13⟩ := ⟨2, by decide +kernel⟩
  refine ⟨base, branded, fun h => ?_⟩
  have related := (relate_branded_iff pure {} brandedUnion.store ⟨14⟩ ⟨13⟩ ⟨13⟩ ⟨64⟩ node
    free.atRest free (by rw [branded])).1.2 h
  rw [branded] at related
  cases related

end Assignability
