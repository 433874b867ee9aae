/-
  Assignability.Proofs.Relation.LiteralUnion
  ──────────────────────────────────────────
  **AN ENUMERATION IS THE UNION OF ITS LITERALS.**

  The two list the same literals in different orders, and a union of one
  literal is that literal.  All these are sets of literals
  (`View.IsLiteralSet`): as sources they fit where each of their literals
  does (`fits_iff`), and as targets they take the same
  (`fits_of_fits`), since a source is taken apart in the same way before
  it comes to one literal, or to the two truth values.

  What fits depends on the store; where a part of the other type is not
  there until a resolver has built it, the order of the questions tells
  (`not_related_enumeration_iff`).

  Main statement: `related_enumeration_iff`.
-/
import Assignability.Proofs.Relation.LazyNode
import Assignability.Proofs.Relation.TruthValues
import Assignability.Proofs.Store.LiteralsOf

namespace Assignability

variable {ρ : Type} {run : Runner ρ}

namespace View

variable {v : View ρ} {literals : Set Handle} {members ms : List Handle} {a b s t m : Handle}
  {source : Node}

/-! ## §1. Members in any order -/

/-- Whether a source is taken by some member depends on what the members are, not on their order. -/
theorem FitsMember.congr (h : v.FitsMember s members) (same : ∀ x, x ∈ members ↔ x ∈ ms) :
    v.FitsMember s ms := by
  rcases h.cases with ⟨m, hm, h⟩ | ⟨rfl, both⟩
  · exact .inr (.inl ⟨m, (same m).1 hm, h⟩)
  · refine .inr (.inr ⟨rfl, ?_⟩)
    unfold Query.haveBooleans at both ⊢
    simp only [Bool.and_eq_true, List.any_eq_true, same] at both ⊢
    exact both

/-- One literal is not both truth values. -/
theorem not_haveBooleans {value : Literal} (hb : v.store.node? b = some (.literal value))
    (only : ∀ x ∈ members, x = b) : Query.haveBooleans v.store members = false := by
  refine Bool.eq_false_iff.2 fun both => ?_
  unfold Query.haveBooleans at both
  simp only [Bool.and_eq_true, List.any_eq_true] at both
  obtain ⟨⟨x, hx, yes⟩, y, hy, no⟩ := both
  rw [only x hx] at yes
  rw [only y hy] at no
  unfold Store.hasBoolean at yes no
  rw [hb] at yes no
  cases value with
  | boolean c =>
    have isTrue : c = true := eq_of_beq yes
    have isFalse : c = false := eq_of_beq no
    rw [isTrue] at isFalse
    cases isFalse
  | _ => cases yes

/-! ## §2. Sets of literals -/

/-- A literal alone, or a union or an enumeration of literals. -/
structure IsLiteralSet (v : View ρ) (literals : Set Handle) (a : Handle) : Prop where
  literal : ∀ x ∈ literals, ∃ value, v.store.node? x = some (.literal value)
  populated : literals.Nonempty
  form : (∀ x, x ∈ literals ↔ x = a) ∨ ∃ n members, v.store.node? a = some n ∧
    v.store.alternatives? n = some members ∧ ∀ x, x ∈ literals ↔ x ∈ members

namespace IsLiteralSet

/-- It is no lazy node, and it is not made of parts that all have to fit. -/
theorem exists_node (set : v.IsLiteralSet literals a) : ∃ n, v.store.node? a = some n ∧
    n.isLazy = false ∧ n.kind ≠ .intrinsic ∧ n.kind ≠ .intersection := by
  rcases set.form with one | ⟨n, members, node, ha, -⟩
  · obtain ⟨value, ha⟩ := set.literal a ((one a).2 rfl)
    exact ⟨.literal value, ha, rfl, (fun h => nomatch h), (fun h => nomatch h)⟩
  · exact ⟨n, node, isLazy_of_alternatives? ha, kind_of_alternatives? ha,
      not_intersection_of_alternatives? ha⟩

/-- It is plain, and so are its parts. -/
theorem madeOf (set : v.IsLiteralSet literals a) : v.store.MadeOf v.store.isPlain a := by
  have one : ∀ x ∈ literals, v.store.madeWithin v.store.isPlain 1 x = true := by
    intro x hx
    obtain ⟨value, hv⟩ := set.literal x hx
    exact Store.madeWithin_succ.2 ⟨_, hv, rfl, fun _ h => absurd h List.not_mem_nil⟩
  rcases set.form with single | ⟨n, members, node, ha, same⟩
  · exact ⟨1, one a ((single a).2 rfl)⟩
  · refine ⟨2, Store.madeWithin_succ.2 ⟨n, node, ?_⟩⟩
    cases n with
    | union | enumeration =>
      obtain rfl := Option.some.inj ha
      exact ⟨rfl, fun x hx => one x ((same x).2 hx)⟩
    | _ => cases ha

/-- A set of literals asks nothing about keys. -/
theorem not_posesKeys {σ : Store ρ} {flags : Flags}
    (set : (View.of run σ flags).IsLiteralSet literals a) (t x y : Handle) :
    ¬ (View.of run σ flags).PosesKeys a t x y :=
  set.madeOf.not_posesKeys (fun _ h => h) x y

/-- Its literals fit what it fits: each of them takes the way of the set through the lazy nodes of the
target. -/
theorem fits_literal (set : v.IsLiteralSet literals a) (h : v.Fits a t) (hm : m ∈ literals) :
    v.Fits m t := by
  obtain ⟨n, node, ln, notIntrinsic, -⟩ := set.exists_node
  rcases set.form with one | ⟨n', members, node', ha, same⟩
  · exact (one m).1 hm ▸ h
  obtain rfl := Option.some.inj (node.symm.trans node')
  have notLiteral : n.kind ≠ .literal := by
    cases n with
    | union | enumeration => exact fun h => nomatch h
    | _ => cases ha
  obtain ⟨value, hv⟩ := set.literal m hm
  -- By coinduction: the pairs of the literal and what the whole set fits are closed under the
  -- rules.
  refine fits_of_closed_or (fun x t => x = m ∧ v.Fits a t) (fun fits granted x t hxt => ?_) ⟨rfl, h⟩
  obtain ⟨rfl, h⟩ := hxt
  have already : v.Fits x t → v.justifies v.keysFit fits x t = true := fun hxt =>
    hxt.justifies fun _ _ h => granted _ _ (.inr h)
  rcases h.atOnce_or_node with atOnce | ⟨target, ht, apart⟩
  · rcases atOnce.cases_of_node node notIntrinsic notLiteral with top | rfl
    · exact (AtOnce.top top).justifies _ _
    · exact already (fits_into_alternatives hv node rfl rfl ha ((same x).1 hm) (.refl x))
  · cases lt : target.isLazy with
    | true =>
      have stood := (fits_stands_iff ⟨n, node⟩ ⟨target, ht⟩).1 h
      rw [stands_of_node node ln] at stood
      refine justifies_of_lazy hv ht (by rw [lt, Bool.or_true]) ?_
      rw [stands_of_node hv rfl]
      exact granted _ _ (.inl ⟨rfl, stood⟩)
    | false =>
      exact already ((fits_alternatives_iff apart node ht lt ha).1 h x ((same x).1 hm))

/-- It fits what its literals fit: they all take one way through the lazy nodes of the target, and the
set takes it too. -/
theorem fits_of_literals (set : v.IsLiteralSet literals a) (h : ∀ x ∈ literals, v.Fits x t) :
    v.Fits a t := by
  obtain ⟨n, node, ln, -, -⟩ := set.exists_node
  obtain ⟨x₀, hx₀⟩ := set.populated
  rcases set.form with one | ⟨n', members, node', ha, same⟩
  · exact h a ((one a).2 rfl)
  obtain rfl := Option.some.inj (node.symm.trans node')
  -- by coinduction: a lazy target is followed by all literals alike, any other splits the set
  refine fits_of_closed_or (fun y t => y = a ∧ ∀ x ∈ literals, v.Fits x t)
    (fun fits granted y t hyt => ?_) ⟨rfl, h⟩
  obtain ⟨rfl, h⟩ := hyt
  obtain ⟨value, hv⟩ := set.literal x₀ hx₀
  obtain ⟨target, ht⟩ := (isLeafOf_literal hv).exists_node (h x₀ hx₀)
  cases lt : target.isLazy with
  | true =>
    refine justifies_of_lazy node ht (by rw [lt, Bool.or_true]) ?_
    rw [stands_of_node node ln]
    refine granted _ _ (.inl ⟨rfl, fun x hx => ?_⟩)
    obtain ⟨value, hv⟩ := set.literal x hx
    have stood := (fits_stands_iff ⟨_, hv⟩ ⟨target, ht⟩).1 (h x hx)
    rwa [stands_of_node hv rfl] at stood
  | false =>
    refine justifies_alternatives node ht lt ha fun m hm => ?_
    exact granted _ _ (.inr (h m ((same m).2 hm)))

/-- **A SET OF LITERALS FITS WHERE ALL ITS LITERALS DO.** -/
theorem fits_iff (set : v.IsLiteralSet literals a) : v.Fits a t ↔ ∀ x ∈ literals, v.Fits x t :=
  ⟨fun h _ hx => set.fits_literal h hx, set.fits_of_literals⟩

/-- What fits a literal of a set fits the set, unless it is to be taken apart first. -/
theorem fits_of_mem (set : v.IsLiteralSet literals a) (hs : v.store.node? s = some source)
    (ls : source.isLazy = false) (hn : v.store.alternatives? source = none) (hm : m ∈ literals)
    (h : v.Fits s m) : v.Fits s a := by
  rcases set.form with one | ⟨n, members, node, ha, same⟩
  · exact (one m).1 hm ▸ h
  · exact fits_into_alternatives hs node ls hn ha ((same m).1 hm) h

/-- What a union of literals takes as one of its members, every set of the same literals takes. -/
theorem fits_of_fitsMember (set : v.IsLiteralSet literals b) (same : ∀ x, x ∈ literals ↔ x ∈ members)
    (hs : v.store.node? s = some source) (ls : source.isLazy = false)
    (hn : v.store.alternatives? source = none) (h : v.FitsMember s members) : v.Fits s b := by
  rcases h.cases with ⟨m, hm, h⟩ | ⟨rfl, both⟩
  · exact set.fits_of_mem hs ls hn ((same m).2 hm) h
  · rcases set.form with one | ⟨n, members', node, ha, same'⟩
    · obtain ⟨value, hb⟩ := set.literal b ((one b).2 rfl)
      rw [not_haveBooleans hb fun x hx => (one x).1 ((same x).2 hx)] at both
      cases both
    · exact (v.isLeafOf_boolean.fits_alternatives_iff node ha).2
        (h.congr fun x => (same x).symm.trans (same' x))

/-- **WHAT FITS A SET OF LITERALS FITS EVERY SET OF THE SAME.** -/
theorem fits_of_fits (set : v.IsLiteralSet literals a) (set' : v.IsLiteralSet literals b)
    (h : v.Fits s a) : v.Fits s b := by
  obtain ⟨n, node, ln, notIntrinsic, -⟩ := set.exists_node
  obtain ⟨n', node', ln', -, notIntersection⟩ := set'.exists_node
  refine fits_of_closed_or (fun s t => t = b ∧ v.Fits s a) (fun fits granted s t hst => ?_) ⟨rfl, h⟩
  obtain ⟨rfl, h⟩ := hst
  have already : v.Fits s t → v.justifies v.keysFit fits s t = true := fun hst =>
    hst.justifies fun _ _ h => granted _ _ (.inr h)
  rcases h.atOnce_or_node with atOnce | ⟨-, -, apart⟩
  · rcases atOnce.cases_into_node node notIntrinsic with (empty | ⟨any, lax⟩) | rfl
    · exact (AtOnce.bottom empty).justifies _ _
    · exact (AtOnce.unchecked any lax).justifies _ _
    · refine already (set.fits_iff.2 fun x hx => ?_)
      obtain ⟨value, hv⟩ := set.literal x hx
      exact set'.fits_of_mem hv rfl rfl hx (.refl x)
  obtain ⟨source, hs⟩ := h.exists_source apart
  -- the source is taken apart against the one set as against the other
  cases ls : source.isLazy with
  | true =>
    have stood := (fits_stands_iff ⟨source, hs⟩ ⟨n, node⟩).1 h
    rw [stands_of_node node ln] at stood
    refine justifies_of_lazy hs node' (by rw [ls, Bool.true_or]) ?_
    rw [stands_of_node node' ln']
    exact granted _ _ (.inl ⟨rfl, stood⟩)
  | false =>
    cases hn : v.store.alternatives? source with
    | some ms =>
      have all := (fits_alternatives_iff apart hs node ln hn).1 h
      exact justifies_alternatives hs node' ln' hn fun m hm => granted _ _ (.inl ⟨rfl, all m hm⟩)
    | none =>
      rcases set.form with one | ⟨_, members, nodeA, ha, same⟩
      · exact already (set'.fits_of_mem hs ls hn ((one a).2 rfl) h)
      by_cases joint : source.kind = .intersection
      · obtain ⟨l, rfl⟩ := Node.exists_intersection joint
        rcases (fits_intersection_into_alternatives_iff apart hs nodeA ha).1 h with h | ⟨m, hm, h⟩ | h
        · exact already (set'.fits_of_fitsMember same hs ls hn h)
        · exact justifies_intersection hs node' ln' notIntersection hm (granted _ _ (.inl ⟨rfl, h⟩))
        · exact absurd h (not_fitAsOne_of_alternatives? ha)
      · exact already (set'.fits_of_fitsMember same hs ls hn
          ((fits_into_alternatives_iff apart hs nodeA ls hn joint ha).1 h))

/-! ## §3. What the constructors build -/

variable {σ : Store ρ} {values : List Literal}

/-- An enumeration is the set of its literals. -/
theorem of_enumeration (nonempty : values ≠ []) (grows : (Store.enumeration values σ).2.Grows v.store) :
    v.IsLiteralSet (v.store.literalsOf values) (Store.enumeration values σ).1 where
  literal := fun _ hx => Store.exists_literal_of_mem hx
  populated := Store.nonempty_literalsOf nonempty (Store.grows_of_enumeration grows)
  form := by
    obtain ⟨l, node, listed⟩ := Store.exists_enumeration nonempty grows
    exact .inr ⟨_, _, node, rfl, fun x => (listed x).symm⟩

/-- And so is the union of the same literals. -/
theorem of_literalUnion (nonempty : values ≠ [])
    (grows : (Store.literalUnion values σ).2.Grows v.store) :
    v.IsLiteralSet (v.store.literalsOf values) (Store.literalUnion values σ).1 where
  literal := fun _ hx => Store.exists_literal_of_mem hx
  populated := Store.nonempty_literalsOf nonempty (Store.grows_of_literalUnion grows)
  form := by
    rcases Store.exists_literalUnion nonempty grows with one | ⟨l, node, listed⟩
    · exact .inl one
    · exact .inr ⟨_, _, node, rfl, fun x => (listed x).symm⟩

end IsLiteralSet

end View

/-! ## §4. What the checker finds -/

/-- **AN ENUMERATION IS FOUND TO RELATE AS THE UNION OF ITS LITERALS DOES**, on either side and to any
type, a recursive one included.  The questions may be asked at different times, and resolvers carried
out on the way, as long as all that the store speaks of is there and no resolver defines a node that
was declared before (`Store.Orderly`).  Or all that the other type reaches is settled, whatever else
the store speaks of and its other resolvers do. -/
theorem related_enumeration_iff (run : Runner ρ) (policy : Policy) (σ τ ω : Store ρ)
    (values : List Literal) (nonempty : values ≠ [])
    (enumerated : (Store.enumeration values σ).2.Grows ω)
    (joined : (Store.literalUnion values τ).2.Grows ω) (t : Handle)
    (asked : Handle → Handle → Finding → Prop)
    (occasion :
      (∀ a b f, asked a b f → Store.Found run policy .assignable ω a b f) ∨
      ω.Settles t ∧ ∀ a b f, asked a b f → (Store.relate run policy .assignable a b ω).1 = f)
    (forth forth' back back' : Finding)
    (source : asked (Store.enumeration values σ).1 t forth ∧
      asked (Store.literalUnion values τ).1 t forth')
    (target : asked t (Store.enumeration values σ).1 back ∧
      asked t (Store.literalUnion values τ).1 back')
    (within : ∀ f ∈ [forth, forth', back, back'], f.exceeded = false) :
    forth.related = forth'.related ∧ back.related = back'.related := by
  -- either way the questions are decided in one view of the store
  obtain ⟨v, grows, decided⟩ : ∃ v : View ρ, ω.Grows v.store ∧ ∀ literals a f,
      v.IsLiteralSet literals a → f.exceeded = false →
      (asked a t f → (f.related = true ↔ v.Fits a t)) ∧
        (asked t a f → (f.related = true ↔ v.Fits t a)) := by
    rcases occasion with found | ⟨settles, found⟩
    · refine ⟨.of run ω.closed policy.flags, (Store.extends_closed ω).toGrows,
        fun literals a f set hit => ?_⟩
      have noKeys := set.not_posesKeys t
      exact ⟨fun h => (found a t f h).fits_iff noKeys hit,
        fun h => (found t a f h).fits_iff (fun x y hk => noKeys x y hk.swap) hit⟩
    · refine ⟨.of run ω policy.flags, .refl ω, fun literals a f set hit => ?_⟩
      have noKeys := set.not_posesKeys t
      have free : ω.LazyFree a := set.madeOf.lazyFree fun _ h => Store.isLazy_of_isPlain h
      have tame : (View.of run ω policy.flags).PairTame run a t :=
        ⟨fun g hg => hg.elim free.atRest.quiescent.settles.resolve_of_below settles.resolve_of_below,
          fun x y hk => absurd hk (noKeys x y)⟩
      have tame' : (View.of run ω policy.flags).PairTame run t a :=
        ⟨fun g hg => tame.settled g hg.symm, fun x y hk => absurd hk.swap (noKeys x y)⟩
      constructor
      · intro h
        rw [← found a t f h] at hit ⊢
        exact relate_iff_of_pairTame tame hit
      · intro h
        rw [← found t a f h] at hit ⊢
        exact relate_iff_of_pairTame tame' hit
  have e := View.IsLiteralSet.of_enumeration nonempty (enumerated.trans grows)
  have u := View.IsLiteralSet.of_literalUnion nonempty (joined.trans grows)
  constructor
  · rw [Bool.eq_iff_iff, (decided _ _ forth e (within _ (by simp))).1 source.1,
      (decided _ _ forth' u (within _ (by simp))).1 source.2, e.fits_iff, u.fits_iff]
  · rw [Bool.eq_iff_iff, (decided _ _ back e (within _ (by simp))).2 target.1,
      (decided _ _ back' u (within _ (by simp))).2 target.2]
    exact ⟨e.fits_of_fits u, u.fits_of_fits e⟩

/-- The numbers two and one, the enumeration of one and two, the union of the two, and a declaration
that stands for either number or itself. -/
def numbersOrItself : Listing Handle where
  nodes := [.literal (.number ⟨0x4000000000000000⟩), .literal (.number ⟨0x3ff0000000000000⟩),
    .enumeration ⟨1⟩, .union ⟨0⟩, .lazy ⟨1⟩, .union ⟨2⟩]
  lists := [[⟨13⟩, ⟨14⟩], [⟨14⟩, ⟨13⟩], [⟨13⟩, ⟨14⟩, ⟨17⟩]]
  definitions := [⟨some ⟨18⟩, some ⟨18⟩⟩]

/-- The enumeration fits the declaration, and the declaration the enumeration, as with the union. -/
theorem related_numbersOrItself :
    let σ := numbersOrItself.store
    let values := [.number ⟨0x3ff0000000000000⟩, .number ⟨0x4000000000000000⟩]
    Store.enumeration values σ = (⟨15⟩, σ) ∧ Store.literalUnion values σ = (⟨16⟩, σ) ∧
      (Store.relate pure {} .assignable ⟨15⟩ ⟨17⟩ σ).1.related = true ∧
      (Store.relate pure {} .assignable ⟨17⟩ ⟨15⟩ σ).1.related = true := by
  intro σ values
  have literals : List.Forall₂ (fun value x => σ.node? x = some (.literal value)) values
      [⟨14⟩, ⟨13⟩] :=
    .cons (by decide +kernel) (.cons (by decide +kernel) .nil)
  have enumerated : Store.enumeration values σ = (⟨15⟩, σ) :=
    Store.enumeration_of_nodes literals (l := ⟨1⟩) (by decide) (by decide +kernel) (by decide +kernel)
  have pieces : Joined.union (σ.flattenUnions [⟨14⟩, ⟨13⟩]) = .several [⟨13⟩, ⟨14⟩] := by decide +kernel
  have joined : Store.literalUnion values σ = (⟨16⟩, σ) :=
    Store.literalUnion_of_nodes literals pieces (l := ⟨0⟩) (by decide +kernel) (by decide +kernel)
  have rests : σ.restsWithin [⟨13⟩, ⟨14⟩, ⟨17⟩, ⟨18⟩] = true := by decide +kernel
  have settles : σ.Settles ⟨17⟩ := (Store.AtRest.of_restsWithin rests (by decide)).quiescent.settles
  have within : ∀ f ∈ [(⟨15⟩, ⟨17⟩), (⟨16⟩, ⟨17⟩), (⟨17⟩, ⟨15⟩), ((⟨17⟩, ⟨16⟩) : Pair)].map
      fun p => (Store.relate pure {} .assignable p.1 p.2 σ).1, f.exceeded = false := by
    simp only [relate_eq_finding]
    decide +kernel
  have union : ∀ p ∈ [(⟨16⟩, ⟨17⟩), ((⟨17⟩, ⟨16⟩) : Pair)],
      (Store.relate pure {} .assignable p.1 p.2 σ).1.related = true := by
    simp only [relate_eq_finding]
    decide +kernel
  have nonempty : values ≠ [] := List.cons_ne_nil _ _
  -- what is left to do does not look into the store
  clear_value σ values
  have same := related_enumeration_iff pure {} σ σ σ values nonempty (by rw [enumerated]; exact .refl σ)
    (by rw [joined]; exact .refl σ) ⟨17⟩ _ (.inr ⟨settles, fun _ _ _ h => h⟩) _ _ _ _
    ⟨rfl, rfl⟩ ⟨rfl, rfl⟩ (by rw [enumerated, joined]; exact within)
  rw [enumerated, joined] at same
  exact ⟨enumerated, joined, same.1.trans (union (⟨16⟩, ⟨17⟩) (by decide)),
    same.2.trans (union (⟨17⟩, ⟨16⟩) (by decide))⟩

/-- Two numbers, their union and the enumeration the other way round; and what is a brand of a type
that is not there and at the same time a declaration that is still to be resolved. -/
def absentBase : Listing Unit where
  nodes := [.literal (.number ⟨0x3ff0000000000000⟩), .literal (.number ⟨0x4000000000000000⟩),
    .union ⟨0⟩, .enumeration ⟨1⟩, .branded ⟨20⟩ ⟨64⟩, .lazy ⟨1⟩, .intersection ⟨2⟩]
  lists := [[⟨13⟩, ⟨14⟩], [⟨14⟩, ⟨13⟩], [⟨17⟩, ⟨18⟩]]
  definitions := [⟨some (), none⟩]

/-- The same with a brand of the first number in the place of what was not there, and the list of it. -/
def absentBaseBuilt : Listing Unit :=
  { absentBase with
    nodes := absentBase.nodes ++ [.branded ⟨13⟩ ⟨128⟩, .array ⟨20⟩]
    distinct := by decide }

/-- Two texts, their union and the enumeration the other way round; and what is a declared node, or
else one that stands for the second text and whose resolver defines the first. -/
def definedText : Listing Defining where
  nodes := [.literal (.string ⟨64⟩), .literal (.string ⟨128⟩), .union ⟨0⟩, .enumeration ⟨1⟩,
    .lazy ⟨1⟩, .lazy ⟨2⟩, .union ⟨2⟩]
  lists := [[⟨13⟩, ⟨14⟩], [⟨14⟩, ⟨13⟩], [⟨17⟩, ⟨18⟩]]
  definitions := [{}, ⟨some { gives := ⟨14⟩, defines := some (⟨17⟩, ⟨13⟩) }, none⟩]

/-- The order of the literals may tell where not all that is spoken of is there, or where a resolver
defines another node.  In the first store a declaration is resolved on the way from the first to the
second, and a brand then has its base; so it is when both are asked in one state, and when the
enumeration is asked after the union.  In the second a declared node is defined on the way. -/
theorem not_related_enumeration_iff :
    let τ := absentBase.store
    let builds := absentBaseBuilt.builds ⟨21⟩
    let values := [.number ⟨0x4000000000000000⟩, .number ⟨0x3ff0000000000000⟩]
    let first := Store.relate builds {} .assignable ⟨19⟩ (Store.literalUnion values τ).1 τ
    let υ := definedText.store
    (Store.enumeration values τ = (⟨16⟩, τ) ∧ Store.literalUnion values τ = (⟨15⟩, τ) ∧
      first.1 = ⟨.assignable, false, false⟩ ∧
      (Store.relate builds {} .assignable ⟨19⟩ (Store.enumeration values τ).1 τ).1
        = ⟨.assignable, true, false⟩ ∧
      (Store.relate builds {} .assignable ⟨19⟩ (Store.enumeration values τ).1 first.2).1
        = ⟨.assignable, true, false⟩) ∧
    Store.enumeration [.string ⟨128⟩, .string ⟨64⟩] υ = (⟨16⟩, υ) ∧
      Store.literalUnion [.string ⟨128⟩, .string ⟨64⟩] υ = (⟨15⟩, υ) ∧
      (Store.relate Defining.run {} .assignable ⟨16⟩ ⟨19⟩ υ).1 = ⟨.assignable, true, false⟩ ∧
      (Store.relate Defining.run {} .assignable ⟨15⟩ ⟨19⟩ υ).1 = ⟨.assignable, false, false⟩ := by
  intro τ builds values first υ
  -- both spellings are in the store already, so that writing them down builds nothing
  have literals : List.Forall₂ (fun value x => τ.node? x = some (.literal value)) values
      [⟨14⟩, ⟨13⟩] :=
    .cons (by decide +kernel) (.cons (by decide +kernel) .nil)
  have enumerated : Store.enumeration values τ = (⟨16⟩, τ) :=
    Store.enumeration_of_nodes literals (l := ⟨1⟩) (by decide) (by decide +kernel) (by decide +kernel)
  have pieces : Joined.union (τ.flattenUnions [⟨14⟩, ⟨13⟩]) = .several [⟨13⟩, ⟨14⟩] := by decide +kernel
  have joined : Store.literalUnion values τ = (⟨15⟩, τ) :=
    Store.literalUnion_of_nodes literals pieces (l := ⟨0⟩) (by decide +kernel) (by decide +kernel)
  have texts : List.Forall₂ (fun value x => υ.node? x = some (.literal value))
      [.string ⟨128⟩, .string ⟨64⟩] [⟨14⟩, ⟨13⟩] :=
    .cons (by decide +kernel) (.cons (by decide +kernel) .nil)
  have pieces' : Joined.union (υ.flattenUnions [⟨14⟩, ⟨13⟩]) = .several [⟨13⟩, ⟨14⟩] := by decide +kernel
  refine ⟨⟨enumerated, joined, ?_⟩,
    Store.enumeration_of_nodes texts (l := ⟨1⟩) (by decide) (by decide +kernel) (by decide +kernel),
    Store.literalUnion_of_nodes texts pieces' (l := ⟨0⟩) (by decide +kernel) (by decide +kernel), ?_⟩
  · simp only [first, enumerated, joined, relate_snd_eq, relate_eq_finding]
    decide +kernel
  · simp only [relate_eq_finding]
    decide +kernel

end Assignability
