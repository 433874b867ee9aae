/-
  Assignability.Proofs.Relation.Transitive
  ────────────────────────────────────────
  **FITTING IS TRANSITIVE.**

  Among plain descriptors without intersections and rest parameters, a
  source that fits what fits a target fits that target.  A middle type is
  a leaf, a union or a shape, and each composes in its own way:

    • a union on the left is taken apart, and so is a union in the middle,
    • what fits a member of a union fits the union (`fits_of_member`),
    • the truth values fit where both literals do (`fits_boolean`),
    • shapes compose by their parts (`Matches.trans`), where parameters
      are compared from the target to the source.

  The parts are smaller, so the whole is by induction on how deep the
  three nest together (`Fits.trans`).
-/
import Assignability.Proofs.Store.Normal

namespace Assignability

variable {ρ : Type}

/-! ## §1. Descriptors that compose -/

namespace Store

variable {σ : Store ρ} {h g : Handle} {n : Nat}

/-- Whether a node is a plain one, no intersection, and no function with a rest parameter. -/
def isSimple (σ : Store ρ) : Node → Bool
  | .intersection _ => false
  | .function f => (σ.function f).parameters.rest.isNone
  | n => σ.isPlain n

/-- Whether a node is one of the descriptors among which fitting composes: a simple one where no
member of a union is a union itself, and enumerations list literals; so they are built. -/
def isComposable (σ : Store ρ) : Node → Bool
  | .intersection _ => false
  | .function f => (σ.function f).parameters.rest.isNone
  | .union l => (σ.list l).all fun m => !σ.isOfKind .union m
  | .enumeration l => (σ.list l).all (σ.isOfKind .literal)
  | n => σ.isPlain n

/-- What the constructors build of simple nodes composes. -/
theorem WellBuilt.isComposable (built : σ.WellBuilt) (hh : σ.MadeOf σ.isSimple h) :
    σ.MadeOf σ.isComposable h := by
  refine hh.mono fun g n hn simple => ?_
  have normal := built.normal g n hn
  cases n with
  | union l =>
    have flat : ∀ m ∈ σ.list l, σ.isOfKind .union m = false := IsJoined.flat normal
    exact List.all_eq_true.2 fun m hm => by rw [flat m hm]; rfl
  | enumeration l => exact List.all_eq_true.2 normal.2
  | _ => exact simple

/-- The nodes that compose are plain. -/
theorem isPlain_of_isComposable (n : Node) (h : σ.isComposable n = true) : σ.isPlain n = true := by
  cases n <;> first | exact h | rfl

/-- And ordinary. -/
theorem isOrdinary_of_isComposable {node : Node} (h : σ.isComposable node = true) :
    node.isOrdinary = true := isOrdinary_of_isPlain (isPlain_of_isComposable _ h)

/-- None of them is lazy. -/
theorem isLazy_of_isComposable (n : Node) (h : σ.isComposable n = true) : n.isLazy = false :=
  isLazy_of_isPlain (isPlain_of_isComposable n h)

/-- None of them is an intersection. -/
theorem kind_of_isComposable {node : Node} (h : σ.isComposable node = true) :
    node.kind ≠ .intersection := by
  cases node with
  | intersection l => cases h
  | _ => exact nofun

end Store

namespace View

variable {v : View ρ} {s t a b c m : Handle} {source target : Node} {members : List Handle}

/-! ## §2. Members of unions -/

/-- A member of a union that fits a target fits it because all of them have to. -/
theorem Fits.alternative (h : v.Fits a t) (ha : v.store.node? a = some source)
    (ht : v.store.node? t = some target) (lt : target.isLazy = false)
    (hm : v.store.alternatives? source = some members) (self : ∀ m ∈ members, v.Fits m a) :
    ∀ m ∈ members, v.Fits m t := by
  intro m mem
  rcases h.atOnce_or with h | notAtOnce
  · cases h with
    | top h => exact AtOnce.fits (.top h)
    | bottom h => exact absurd h (ne_handle_of_node ha (kind_of_alternatives? hm) .never)
    | unchecked h => exact absurd h (ne_handle_of_node ha (kind_of_alternatives? hm) .any)
    | self h => exact h ▸ self m mem
    | leaf h =>
      rcases (leafPair?_eq_some_true ha ht).1 h with ⟨_, _, rfl, -⟩ | ⟨_, _, rfl, -⟩
      · exact nomatch hm
      · exact nomatch hm
  · exact (fits_alternatives_iff notAtOnce ha ht lt hm).1 h m mem

/-- **WHAT FITS A MEMBER FITS THE UNION.** -/
theorem fits_of_member {i : Nat} : ∀ {a c m : Handle} {j : Nat} {target : Node}
    {members : List Handle}, v.store.madeWithin v.store.isComposable i a = true →
      v.store.madeWithin v.store.isComposable j m = true →
      v.store.node? c = some target → v.store.alternatives? target = some members →
      m ∈ members → v.Fits a m → v.Fits a c := by
  -- on how deep the source nests: if it is a union itself, each of its members fits
  induction i with
  | zero => exact fun h => nomatch h
  | succ i ih =>
    intro a c m j target members hi hj hc hm mem h
    obtain ⟨source, ha, pa, parts⟩ := Store.madeWithin_succ.1 hi
    obtain ⟨_, middle, -, hn, pm, -⟩ := Store.exists_of_madeWithin hj
    refine fits_of_apart ha hc (.inr (isLeaf_of_alternatives? hm)) fun apart => ?_
    have la := Store.isLazy_of_isComposable _ pa
    have lm := Store.isLazy_of_isComposable _ pm
    cases hs : v.store.alternatives? source with
    | none =>
      exact (fits_into_alternatives_iff apart ha hc la hs (Store.kind_of_isComposable pa) hm).2
        (.inr (.inl ⟨m, mem, h⟩))
    | some alternatives =>
      have below : ∀ x ∈ alternatives, v.store.madeWithin v.store.isComposable i x = true :=
        fun x hx => parts x (Store.mem_components_of_alternatives? hs hx)
      have self : ∀ x ∈ alternatives, v.Fits x a :=
        fun x hx => ih (below x hx) (below x hx) ha hs hx (.refl x)
      have each := h.alternative ha hn lm hs self
      exact (fits_alternatives_iff apart ha hc (isLazy_of_alternatives? hm) hs).2
        fun x hx => ih (below x hx) hj hc hm mem (each x hx)

/-- The members of a union fit it. -/
theorem fits_self {i : Nat} (made : v.store.madeWithin v.store.isComposable i a = true)
    (ha : v.store.node? a = some source) (hm : v.store.alternatives? source = some members) :
    ∀ m ∈ members, v.Fits m a := by
  intro m mem
  obtain ⟨j, _, rfl, ha', -, parts⟩ := Store.exists_of_madeWithin made
  obtain rfl := Option.some.inj (ha.symm.trans ha')
  have below := parts m (Store.mem_components_of_alternatives? hm mem)
  exact fits_of_member below below ha hm mem (.refl m)

/-! ## §3. Truth values -/

/-- A literal is no built-in type. -/
theorem ne_handle_of_literal {value : Literal} (ha : v.store.node? a = some (.literal value))
    (k : Intrinsic) : a ≠ k.handle := ne_handle_of_node ha nofun k

/-- A member of an enumeration that is a truth value. -/
theorem hasBoolean_of_mem {x : Bool} (hm : v.store.node? m = some (.literal (.boolean x))) :
    v.store.hasBoolean x m = true := by
  unfold Store.hasBoolean
  rw [hm]
  exact beq_self_eq_true x

/-- An enumeration has the truth values of its members. -/
theorem hasBoolean_enumeration {l : ListId} {x : Bool}
    (hm : v.store.node? m = some (.enumeration l))
    (literals : (v.store.list l).all (v.store.isOfKind .literal) = true)
    (h : (v.store.list l).any (v.store.hasBoolean x) = true) : v.store.hasBoolean x m = true := by
  obtain ⟨g, hg, hb⟩ := List.any_eq_true.1 h
  have literal := List.all_eq_true.1 literals g hg
  unfold Store.hasBoolean at hb ⊢
  rw [hm]
  dsimp only
  refine List.any_eq_true.2 ⟨g, hg, ?_⟩
  unfold Store.isOfKind at literal
  cases hn : v.store.node? g with
  | none => rw [hn] at literal; cases literal
  | some node =>
    rw [hn] at literal hb
    cases node with
    -- a literal shows its own truth value, and nothing else in an enumeration does
    | literal value => cases value <;> exact hb
    | _ => cases literal

/-- A truth value fits the truth values, itself, and the unions and enumerations with a member that
has it; whatever else it fits, all truth values fit. -/
theorem fits_boolean_or {x : Bool} (ha : v.store.node? a = some (.literal (.boolean x))) {j : Nat} :
    ∀ {c : Handle} {target : Node}, v.store.madeWithin v.store.isComposable j c = true →
      v.store.node? c = some target → v.Fits a c →
      v.Fits .boolean c ∨ a = c ∨ ∃ members, v.store.alternatives? target = some members ∧
        members.any (v.store.hasBoolean x) = true := by
  -- on how deep the target nests; members of a union are no unions, so it ends there
  induction j with
  | zero => exact fun h => nomatch h
  | succ j ih =>
    intro c target hj hc h
    obtain ⟨_, hc', pc, parts⟩ := Store.madeWithin_succ.1 hj
    obtain rfl := Option.some.inj (hc.symm.trans hc')
    cases h.ways ha hc rfl (Store.isOrdinary_of_isComposable pc) with
    | atOnce h =>
      cases h with
      | top h => exact .inl (AtOnce.fits (.top h))
      | bottom h => exact absurd h (ne_handle_of_literal ha .never)
      | unchecked h => exact absurd h (ne_handle_of_literal ha .any)
      | self h => exact .inr (.inl h)
      | leaf h =>
        rcases (leafPair?_eq_some_true ha hc).1 h with ⟨_, _, he, -⟩ | ⟨_, l, he, rfl, hf⟩
        · cases he
        · cases he
          have boolean : l = .boolean := by cases l <;> first | rfl | cases hf
          subst boolean
          exact .inl (v.store.node?_injective (v.store.node?_handle .boolean) hc ▸ .refl _)
    | members hm _ => cases hm
    | every _ he _ => exact absurd (congrArg Node.kind he) (Store.kind_of_isComposable pc)
    | some he _ _ => cases he
    | asOne he _ => cases he
    | shapes ps _ _ => cases ps
    | @member members _ hm h =>
      have made : ∀ m ∈ members, v.store.madeWithin v.store.isComposable j m = true :=
        fun m hg => parts m (Store.mem_components_of_alternatives? hm hg)
      have viaMember : ∀ m ∈ members, v.Fits .boolean m → v.Fits .boolean c := fun m hg h =>
        fits_of_member (i := 1)
          (Store.madeWithin_succ.2 ⟨_, v.store.node?_handle .boolean, rfl, nofun⟩)
          (made m hg) hc hm hg h
      rcases h with h | ⟨m, hg, h⟩ | ⟨rfl, -⟩
      · unfold Query.isMember at h
        rw [ha] at h
        simp only [Literal.isNaN, Bool.false_and, Bool.or_false, Bool.or_eq_true,
          List.contains_iff_mem] at h
        rcases h with h | h
        · exact .inr (.inr ⟨_, hm, List.any_eq_true.2 ⟨a, h, hasBoolean_of_mem ha⟩⟩)
        · exact .inl (viaMember _ h (.refl _))
      · obtain ⟨k, node, rfl, hn, pn, -⟩ := Store.exists_of_madeWithin (made m hg)
        rcases ih (made m hg) hn h with h | rfl | ⟨inner, hi, h⟩
        · exact .inl (viaMember m hg h)
        · exact .inr (.inr ⟨_, hm, List.any_eq_true.2 ⟨a, hg, hasBoolean_of_mem ha⟩⟩)
        · refine .inr (.inr ⟨_, hm, List.any_eq_true.2 ⟨m, hg, ?_⟩⟩)
          -- the member lists literals, since it is a union of neither sort
          cases node with
          | enumeration l =>
            obtain rfl := Option.some.inj hi
            exact hasBoolean_enumeration hn pn h
          | union l =>
            exfalso
            cases target with
            | union k =>
              obtain rfl := Option.some.inj hm
              have flat := List.all_eq_true.1 pc m hg
              rw [Bool.not_eq_true', ← Bool.not_eq_true, Store.isOfKind_of_node hn] at flat
              exact flat rfl
            | enumeration k =>
              obtain rfl := Option.some.inj hm
              have literal := List.all_eq_true.1 pc m hg
              rw [Store.isOfKind_of_node hn] at literal
              cases literal
            | _ => cases hm
          | _ => cases hi
      · exact absurd rfl (ne_handle_of_literal ha .boolean)

/-- **THE TRUTH VALUES FIT WHERE BOTH OF THEM DO.** -/
theorem fits_boolean {j : Nat} (ha : v.store.node? a = some (.literal (.boolean true)))
    (hb : v.store.node? b = some (.literal (.boolean false)))
    (hc : v.store.madeWithin v.store.isComposable j c = true) (h : v.Fits a c) (h' : v.Fits b c) :
    v.Fits .boolean c := by
  obtain ⟨_, target, rfl, hn, pc, -⟩ := Store.exists_of_madeWithin hc
  rcases fits_boolean_or ha hc hn h with h | rfl | ⟨members, hm, hasTrue⟩
  · exact h
  · -- the other literal does not fit this one
    rcases fits_boolean_or hb hc hn h' with h | rfl | ⟨members, hm, -⟩
    · exact h
    · cases ha.symm.trans hb
    · obtain rfl := Option.some.inj (ha.symm.trans hn)
      cases hm
  · rcases fits_boolean_or hb hc hn h' with h | rfl | ⟨_, hm', hasFalse⟩
    · exact h
    · obtain rfl := Option.some.inj (hb.symm.trans hn)
      cases hm
    · obtain rfl := Option.some.inj (hm.symm.trans hm')
      refine fits_of_apart (v.store.node?_handle .boolean) hn (.inr (isLeaf_of_alternatives? hm))
        fun apart => ?_
      refine (fits_into_alternatives_iff apart (v.store.node?_handle .boolean) hn rfl rfl nofun
        hm).2 (.inr (.inr ⟨rfl, ?_⟩))
      unfold Query.haveBooleans
      rw [hasTrue, hasFalse, Bool.and_self]

/-- A literal is made of what composes. -/
theorem madeWithin_literal {value : Literal} (ha : v.store.node? a = some (.literal value)) :
    v.store.madeWithin v.store.isComposable 1 a = true :=
  Store.madeWithin_succ.2 ⟨_, ha, rfl, nofun⟩

/-- A truth value fits what has it. -/
theorem fits_of_hasBoolean {x : Bool} (ha : v.store.node? a = some (.literal (.boolean x)))
    (h : v.store.hasBoolean x m = true) : v.Fits a m := by
  obtain ⟨g, hg, rfl | ⟨l, hm, mem⟩⟩ := v.store.exists_literal_of_hasBoolean h
  · exact v.store.node?_injective ha hg ▸ .refl a
  · obtain rfl := v.store.node?_injective ha hg
    exact fits_of_member (madeWithin_literal ha) (madeWithin_literal ha) hm rfl mem (.refl a)

/-- Where a handle that has a truth value fits, so does the truth value. -/
theorem exists_literal_fits {x : Bool} {j : Nat}
    (made : v.store.madeWithin v.store.isComposable j m = true)
    (h : v.store.hasBoolean x m = true) (hf : v.Fits m t) (ht : v.store.node? t = some target)
    (lt : target.isLazy = false) :
    ∃ g, v.store.node? g = some (.literal (.boolean x)) ∧ v.Fits g t := by
  obtain ⟨g, hg, rfl | ⟨l, hm, mem⟩⟩ := v.store.exists_literal_of_hasBoolean h
  · exact ⟨g, hg, hf⟩
  · exact ⟨g, hg, hf.alternative hm ht lt rfl (fits_self made hm rfl) g mem⟩

/-! ## §4. Shapes -/

/-- Three handles compose, in both directions. -/
def Composes (v : View ρ) (x y z : Handle) : Prop :=
  (v.Fits x y → v.Fits y z → v.Fits x z) ∧ (v.Fits z y → v.Fits y x → v.Fits z x)

/-- All parts of three lists compose. -/
def AllCompose (v : View ρ) (xs ys zs : List Handle) : Prop :=
  ∀ x ∈ xs, ∀ y ∈ ys, ∀ z ∈ zs, v.Composes x y z

/-- Composition of parts may be read from either end. -/
theorem AllCompose.swap {xs ys zs : List Handle} (h : v.AllCompose xs ys zs) :
    v.AllCompose zs ys xs := fun z hz y hy x hx => (h x hx y hy z hz).symm

/-- Parts that fit one after the other fit altogether. -/
theorem AllCompose.fits {xs ys zs : List Handle} (h : v.AllCompose xs ys zs) {x y z : Handle}
    (hx : x ∈ xs) (hy : y ∈ ys) (hz : z ∈ zs) (hxy : v.Fits x y) (hyz : v.Fits y z) :
    v.Fits x z := (h x hx y hy z hz).1 hxy hyz

section Sequences

variable {r s t : Sequence}

/-- Sequences fit one after the other where arities are exact. -/
theorem SequencesFit.trans_atLeast (exact : v.flags.exactTupleArity = true)
    (h : v.SequencesFit .atLeast r s) (h' : v.SequencesFit .atLeast s t)
    (parts : v.AllCompose r.parts s.parts t.parts) : v.SequencesFit .atLeast r t := by
  rw [sequencesFit_atLeast_iff exact] at h h' ⊢
  obtain ⟨long, fits⟩ := h
  obtain ⟨long', fits'⟩ := h'
  refine ⟨Nat.le_trans long' long, fun i x hx => ?_⟩
  obtain ⟨y, hy, hxy⟩ := fits i x hx
  obtain ⟨z, hz, hyz⟩ := fits' i y hy
  exact ⟨z, hz, parts.fits (Sequence.mem_parts_iff.2 ⟨i, hx⟩) (Sequence.mem_parts_iff.2 ⟨i, hy⟩)
    (Sequence.mem_parts_iff.2 ⟨i, hz⟩) hxy hyz⟩

/-- Without a rest parameter on the left there is something at every position in the middle. -/
theorem SequencesFit.trans_exact (noRest : r.rest = none) (h : v.SequencesFit .exact r s)
    (h' : v.SequencesFit .exact s t) (parts : v.AllCompose r.parts s.parts t.parts) :
    v.SequencesFit .exact r t := by
  rw [sequencesFit_exact_iff] at h h' ⊢
  obtain ⟨same, fits⟩ := h
  obtain ⟨same', fits'⟩ := h'
  refine ⟨same.trans same', fun i x z hx hz => ?_⟩
  have within : i < r.items.length := by
    refine Nat.lt_of_not_le fun past => ?_
    rw [Sequence.typeAt?_of_le past, noRest] at hx
    cases hx
  have hy := Sequence.typeAt?_of_lt (s := s) (i := i) (by omega)
  exact parts.fits (Sequence.mem_parts_iff.2 ⟨i, hx⟩) (Sequence.mem_parts_iff.2 ⟨i, hy⟩)
    (Sequence.mem_parts_iff.2 ⟨i, hz⟩) (fits i x _ hx hy) (fits' i _ z hy hz)

end Sequences

/-- **SHAPES COMPOSE WHERE THEIR PARTS DO.** -/
theorem Matches.trans {x y z : Node} (exact : v.flags.exactTupleArity = true)
    (hx : v.store.isComposable x = true) (hy : v.store.isComposable y = true)
    (hz : v.store.isComposable z = true) (h : v.Matches x y) (h' : v.Matches y z)
    (parts : v.AllCompose (v.store.components x) (v.store.components y) (v.store.components z)) :
    v.Matches x z := by
  have first : ∀ {a : Handle} {as : List Handle}, a ∈ a :: as := List.mem_cons_self
  have second : ∀ {a b : Handle}, b ∈ [a, b] := by simp
  cases h with
  | array h =>
    cases h' with
    | array h' => exact .array (parts.fits first first first h h')
    | arrayToTuple hi hr h' =>
      refine .arrayToTuple hi hr (parts.fits first first ?_ h h')
      exact List.mem_append_right _ (by rw [hr]; exact first)
  | @tuple o p h =>
    cases h' with
    | tuple h' => exact .tuple (h.trans_atLeast exact h' parts)
    | tupleToArray h' =>
      refine .tupleToArray fun a ha => ?_
      obtain ⟨i, hi⟩ := Sequence.mem_parts_iff.1 ha
      obtain ⟨b, hb, hf⟩ := ((sequencesFit_atLeast_iff exact).1 h).2 i a hi
      have mem := Sequence.mem_parts_iff.2 ⟨i, hb⟩
      exact parts.fits ha mem first hf (h' b mem)
  | @tupleToArray o b h =>
    cases h' with
    | array h' => exact .tupleToArray fun a ha => parts.fits ha first first (h a ha) h'
    | @arrayToTuple _ c p hi hr h' =>
      -- the target has no items, so its rest takes all of the source
      refine .tuple ((sequencesFit_atLeast_iff exact).2 ⟨by rw [hi]; exact Nat.zero_le _, ?_⟩)
      intro i a ha
      have mem := Sequence.mem_parts_iff.2 ⟨i, ha⟩
      refine ⟨c, by rw [Sequence.typeAt?_of_le (by rw [hi]; exact Nat.zero_le i), hr], ?_⟩
      exact parts.fits mem first (List.mem_append_right _ (by rw [hr]; exact first)) (h a mem) h'
  | @arrayToTuple a b p hi hr h =>
    have typeAt : ∀ i, (v.store.tuple p).typeAt? i = some b := fun i => by
      rw [Sequence.typeAt?_of_le (by rw [hi]; exact Nat.zero_le i), hr]
    have mem := Sequence.mem_parts_iff.2 ⟨0, typeAt 0⟩
    cases h' with
    | @tuple _ q h' =>
      -- the middle takes lists of any length, so the target has a rest and no items as well
      obtain ⟨long, fits⟩ := (sequencesFit_atLeast_iff exact).1 h'
      have none : (v.store.tuple q).items = [] :=
        List.eq_nil_of_length_eq_zero (by rw [hi] at long; exact Nat.le_zero.1 long)
      obtain ⟨c, hc, hf⟩ := fits 0 b (typeAt 0)
      have mem' := Sequence.mem_parts_iff.2 ⟨0, hc⟩
      rw [Sequence.typeAt?_of_le (by rw [none]; exact Nat.le_refl 0)] at hc
      exact .arrayToTuple none hc (parts.fits first mem mem' h hf)
    | tupleToArray h' => exact .array (parts.fits first mem first h (h' b mem))
  | object h =>
    cases h' with
    | object h' =>
      refine .object ((isTrue_eval_objects_iff (Store.isPlain_of_isComposable _ hz)).2 ?_)
      intro f hf
      obtain ⟨g, hg, -, fits'⟩ := (isTrue_eval_objects_iff
        (Store.isPlain_of_isComposable _ hz)).1 h' f hf
      obtain ⟨memg, nameg⟩ := Layout.of_field? hg
      obtain ⟨e, he, present, fits⟩ := (isTrue_eval_objects_iff
        (Store.isPlain_of_isComposable _ hy)).1 h g memg
      rw [nameg] at he
      refine ⟨e, he, present, parts.fits ?_ (Query.mem_parts_of_field memg)
        (Query.mem_parts_of_field hf) fits fits'⟩
      exact Query.mem_parts_of_field (Layout.of_field? he).1
  | promise h =>
    cases h' with
    | promise h' => exact .promise (parts.fits first first first h h')
  | set h k =>
    cases h' with
    | set h' k' =>
      exact .set (parts.fits first first first h h') (parts.swap.fits first first first k' k)
  | map h k l m =>
    cases h' with
    | map h' k' l' m' =>
      exact .map (parts.fits first first first h h') (parts.swap.fits first first first k' k)
        (parts.fits second second second l l') (parts.swap.fits second second second m' m)
  | @function f g hp hr =>
    cases h' with
    | @function _ k hp' hr' =>
      -- the parameters lead from the target back to the source
      refine .function (hp'.trans_exact (Option.isNone_iff_eq_none.1 hz) hp ?_)
        (parts.fits first first first hr hr')
      exact fun x hx y hy z hz => parts.swap x (List.mem_cons_of_mem _ hx) y
        (List.mem_cons_of_mem _ hy) z (List.mem_cons_of_mem _ hz)

/-! ## §5. All plain descriptors -/

/-- To widen twice is to widen. -/
theorem widensTo_trans {k l m : Intrinsic} (h : k.widensTo l = true) (h' : l.widensTo m = true) :
    k.widensTo m = true := by
  rw [Intrinsic.widensTo_eq_true] at h'
  rcases h' with rfl | ⟨rfl, rfl⟩ | ⟨rfl, rfl⟩
  · exact h
  · rw [Intrinsic.widensTo_eq_true] at h
    rcases h with rfl | ⟨-, h⟩ | ⟨-, h⟩ <;> first | rfl | cases h
  · rw [Intrinsic.widensTo_eq_true] at h
    rcases h with rfl | ⟨-, h⟩ | ⟨-, h⟩ <;> first | rfl | cases h

/-- A literal fits what its type widens to. -/
theorem fits_widensTo {value : Literal} {l m : Intrinsic} (h : value.fits l = true)
    (h' : l.widensTo m = true) : value.fits m = true := by
  rw [Intrinsic.widensTo_eq_true] at h'
  rcases h' with rfl | ⟨rfl, rfl⟩ | ⟨rfl, rfl⟩
  · exact h
  · cases value <;> simp_all [Literal.fits, Literal.primitive, Literal.isNaN]
  · cases value <;> simp_all [Literal.fits, Literal.primitive, Literal.isNaN]

/-- The ways in which one such descriptor fits another. -/
theorem Fits.composable_ways (h : v.Fits s t) (hs : v.store.node? s = some source)
    (ht : v.store.node? t = some target) (ps : v.store.isComposable source = true)
    (pt : v.store.isComposable target = true) :
    s = .never ∨ t = .unknown ∨ s = t ∨ v.store.leafPair? s t = some true ∨
      (∃ members, v.store.alternatives? source = some members ∧ ∀ m ∈ members, v.Fits m t) ∨
      (∃ members, v.store.alternatives? source = none ∧
        v.store.alternatives? target = some members ∧ v.FitsMember s members) ∨
      source.isShape = true ∧ target.isShape = true ∧ v.Matches source target := by
  -- what composes is neither `any` nor an intersection, so the ways of these fall away
  cases h.ways hs ht (Store.isOrdinary_of_isComposable ps)
    (Store.isOrdinary_of_isComposable pt) with
  | atOnce h =>
    cases h with
    | top h =>
      have notAny := Store.ne_any_of_isPlain ht (Store.isPlain_of_isComposable _ pt)
      exact .inr (.inl (h.resolve_right notAny))
    | bottom h => exact .inl h
    | unchecked h =>
      exact absurd h (Store.ne_any_of_isPlain hs (Store.isPlain_of_isComposable _ ps))
    | self h => exact .inr (.inr (.inl h))
    | leaf h => exact .inr (.inr (.inr (.inl h)))
  | members ha h => exact .inr (.inr (.inr (.inr (.inl ⟨_, ha, h⟩))))
  | member hn ha h => exact .inr (.inr (.inr (.inr (.inr (.inl ⟨_, hn, ha, h⟩)))))
  | shapes hs ht h => exact .inr (.inr (.inr (.inr (.inr (.inr ⟨hs, ht, h⟩)))))
  | every _ he _ => exact absurd (congrArg Node.kind he) (Store.kind_of_isComposable pt)
  | some he _ _ => exact absurd (congrArg Node.kind he) (Store.kind_of_isComposable ps)
  | asOne he _ => exact absurd (congrArg Node.kind he) (Store.kind_of_isComposable ps)

/-- Three handles with their nodes. -/
structure Chain (v : View ρ) (a b c : Handle) (x y z : Node) : Prop where
  left : v.store.node? a = some x
  middle : v.store.node? b = some y
  right : v.store.node? c = some z
  leftNode : v.store.isComposable x = true
  middleNode : v.store.isComposable y = true
  rightNode : v.store.isComposable z = true
  /-- A union on the left is taken apart first. -/
  noUnion : v.store.alternatives? x = none
  /-- What fits a member of the target fits the target. -/
  viaMember : ∀ members, v.store.alternatives? z = some members →
    (∃ m ∈ members, v.Fits a m) → v.Fits a c

/-- Only the empty type fits the empty type. -/
theorem eq_never_of_leafPair? (ha : v.store.node? a = some source)
    (h : v.store.leafPair? a .never = some true) : a = .never := by
  rcases (leafPair?_eq_some_true ha (v.store.node?_handle .never)).1 h with
    ⟨k, _, rfl, he, hk⟩ | ⟨value, _, rfl, he, hf⟩
  · cases he
    have never : k = .never := by cases k <;> first | rfl | cases hk
    subst never
    exact v.store.node?_injective ha (v.store.node?_handle .never)
  · cases he
    cases value <;> simp [Literal.fits, Literal.primitive] at hf

/-- `unknown` fits only itself. -/
theorem eq_unknown_of_leafPair? (hc : v.store.node? c = some target)
    (h : v.store.leafPair? .unknown c = some true) : c = .unknown := by
  rcases (leafPair?_eq_some_true (v.store.node?_handle .unknown) hc).1 h with
    ⟨_, l, he, rfl, hl⟩ | ⟨_, _, he, -⟩
  · cases he
    have unknown : l = .unknown := by cases l <;> first | rfl | cases hl
    subst unknown
    exact v.store.node?_injective hc (v.store.node?_handle .unknown)
  · cases he

section

variable {x y z : Node} (chain : v.Chain a b c x y z)
include chain

/-- Two leaves compose with a third. -/
theorem Chain.leaves (h : v.store.leafPair? a b = some true)
    (h' : v.store.leafPair? b c = some true) : v.Fits a c := by
  refine AtOnce.fits (.leaf ((leafPair?_eq_some_true chain.left chain.right).2 ?_))
  rcases (leafPair?_eq_some_true chain.middle chain.right).1 h' with
    ⟨l, m, rfl, rfl, hw⟩ | ⟨value, m, rfl, rfl, -⟩
  · rcases (leafPair?_eq_some_true chain.left chain.middle).1 h with
      ⟨k, _, rfl, he, hk⟩ | ⟨value, _, rfl, he, hf⟩
    · cases he
      exact .inl ⟨k, m, rfl, rfl, widensTo_trans hk hw⟩
    · cases he
      exact .inr ⟨value, m, rfl, rfl, fits_widensTo hf hw⟩
  · rcases (leafPair?_eq_some_true chain.left chain.middle).1 h with
      ⟨_, _, _, he, -⟩ | ⟨_, _, _, he, -⟩
    · cases he
    · cases he

/-- A literal that fits the truth values fits a union with both of them. -/
theorem Chain.truthValues (hb : b = .boolean) (h : v.store.leafPair? a b = some true)
    (hbc : v.Fits b c) (hm : v.store.alternatives? z = some members)
    (both : Query.haveBooleans v.store members = true) : v.Fits a c := by
  subst hb
  obtain ⟨hasTrue, hasFalse⟩ := Bool.and_eq_true_iff.1 both
  have each : ∀ value, ∃ m ∈ members, v.store.hasBoolean value m = true := by
    intro value
    cases value with
    | true => exact List.any_eq_true.1 hasTrue
    | false => exact List.any_eq_true.1 hasFalse
  -- below `boolean` are `boolean` itself and the two literals
  rcases (leafPair?_eq_some_true chain.left (v.store.node?_handle .boolean)).1 h with
    ⟨k, _, rfl, he, hk⟩ | ⟨value, _, rfl, he, hf⟩
  · cases he
    have boolean : k = .boolean := by cases k <;> first | rfl | cases hk
    subst boolean
    exact v.store.node?_injective (v.store.node?_handle .boolean) chain.left ▸ hbc
  · cases he
    cases value with
    | boolean value =>
      obtain ⟨m, mem, hb⟩ := each value
      exact chain.viaMember members hm ⟨m, mem, fits_of_hasBoolean chain.left hb⟩
    | number n => simp [Literal.fits, Literal.primitive] at hf
    | _ => cases hf

/-- **A LEAF IN THE MIDDLE.** -/
theorem Chain.leaf (hab : v.Fits a b) (hbc : v.Fits b c) (leaf : y.isLeaf = true)
    (below : ∀ members, v.store.alternatives? z = some members →
      ∀ m ∈ members, v.Fits b m → v.Fits a m) : v.Fits a c := by
  have notUnion : v.store.alternatives? y = none := by cases y <;> first | rfl | cases leaf
  have notShape : y.isShape = false := by cases y <;> first | rfl | cases leaf
  -- a leaf in the middle: on its left there are only the empty type, itself and leaves
  have left : a = .never ∨ b = .unknown ∨ a = b ∨ v.store.leafPair? a b = some true := by
    rcases hab.composable_ways chain.left chain.middle chain.leftNode chain.middleNode with
      h | h | h | h | ⟨_, hm, -⟩ | ⟨_, -, hm, -⟩ | ⟨-, sy, -⟩
    · exact .inl h
    · exact .inr (.inl h)
    · exact .inr (.inr (.inl h))
    · exact .inr (.inr (.inr h))
    · rw [chain.noUnion] at hm; cases hm
    · rw [notUnion] at hm; cases hm
    · rw [notShape] at sy; cases sy
  -- on its right come the tops, itself, leaves and unions
  rcases hbc.composable_ways chain.middle chain.right chain.middleNode chain.rightNode with
    rfl | rfl | rfl | right | ⟨_, hm, -⟩ | ⟨members, -, hm, h⟩ | ⟨sy, -⟩
  · rcases left with rfl | he | rfl | left
    · exact AtOnce.fits (.bottom rfl)
    · cases he
    · exact AtOnce.fits (.bottom rfl)
    · exact AtOnce.fits (.bottom (eq_never_of_leafPair? chain.left left))
  · exact AtOnce.fits (.top (.inl rfl))
  · exact hab
  · rcases left with rfl | rfl | rfl | left
    · exact AtOnce.fits (.bottom rfl)
    · exact AtOnce.fits (.top (.inl (eq_unknown_of_leafPair? chain.right right)))
    · exact hbc
    · exact chain.leaves left right
  · rw [notUnion] at hm; cases hm
  · rcases h.cases with ⟨m, mem, hf⟩ | ⟨he, both⟩
    · exact chain.viaMember members hm ⟨m, mem, below members hm m mem hf⟩
    · rcases left with rfl | hb | rfl | left
      · exact AtOnce.fits (.bottom rfl)
      · cases he.symm.trans hb
      · exact hbc
      · exact chain.truthValues he left hbc hm both
  · rw [notShape] at sy; cases sy

/-- **A UNION IN THE MIDDLE**, of which all members fit the right. -/
theorem Chain.union (hab : v.Fits a b) (hbc : v.Fits b c)
    (hm : v.store.alternatives? y = some members) {j k : Nat}
    (made : v.store.madeWithin v.store.isComposable j b = true)
    (right : v.store.madeWithin v.store.isComposable k c = true)
    (below : ∀ m ∈ members, v.Fits a m → v.Fits m c → v.Fits a c) : v.Fits a c := by
  have lz := Store.isLazy_of_isComposable _ chain.rightNode
  -- a union in the middle: all of its members fit the right, and the left fits one
  have each := hbc.alternative chain.middle chain.right lz hm (fits_self made chain.middle hm)
  have inner : ∀ m ∈ members, ∃ j, v.store.madeWithin v.store.isComposable j m = true := by
    obtain ⟨j, _, rfl, hb, -, parts⟩ := Store.exists_of_madeWithin made
    obtain rfl := Option.some.inj (chain.middle.symm.trans hb)
    exact fun m mem => ⟨j, parts m (Store.mem_components_of_alternatives? hm mem)⟩
  rcases hab.composable_ways chain.left chain.middle chain.leftNode chain.middleNode with
    rfl | rfl | rfl | h | ⟨_, hm', -⟩ | ⟨_, -, hm', h⟩ | ⟨-, sy, -⟩
  · exact AtOnce.fits (.bottom rfl)
  · obtain rfl := Option.some.inj (chain.middle.symm.trans (v.store.node?_handle .unknown))
    cases hm
  · exact hbc
  · rcases (leafPair?_eq_some_true chain.left chain.middle).1 h with
      ⟨_, _, _, rfl, -⟩ | ⟨_, _, _, rfl, -⟩
    · cases hm
    · cases hm
  · rw [chain.noUnion] at hm'; cases hm'
  · obtain rfl := Option.some.inj (hm.symm.trans hm')
    rcases h.cases with ⟨m, mem, hf⟩ | ⟨rfl, both⟩
    · exact below m mem hf (each m mem)
    · -- the members cover both truth values, so both fit the right
      obtain ⟨hasTrue, hasFalse⟩ := Bool.and_eq_true_iff.1 both
      obtain ⟨m, mem, hb⟩ := List.any_eq_true.1 hasTrue
      obtain ⟨m', mem', hb'⟩ := List.any_eq_true.1 hasFalse
      obtain ⟨_, made⟩ := inner m mem
      obtain ⟨_, made'⟩ := inner m' mem'
      obtain ⟨f, hf, fits⟩ := exists_literal_fits made hb (each m mem) chain.right lz
      obtain ⟨g, hg, fits'⟩ := exists_literal_fits made' hb' (each m' mem') chain.right lz
      exact fits_boolean hf hg right fits fits'
  · rw [isShape_of_alternatives? hm] at sy; cases sy

/-- **A SHAPE IN THE MIDDLE.** -/
theorem Chain.shape (exact : v.flags.exactTupleArity = true) (hab : v.Fits a b) (hbc : v.Fits b c)
    (shape : y.isShape = true)
    (below : ∀ members, v.store.alternatives? z = some members →
      ∀ m ∈ members, v.Fits b m → v.Fits a m)
    (parts : v.AllCompose (v.store.components x) (v.store.components y) (v.store.components z)) :
    v.Fits a c := by
  have notUnion : v.store.alternatives? y = none := by cases y <;> first | rfl | cases shape
  -- a shape in the middle: both sides match part by part, or end in a top or the empty type
  have notLeaf : ∀ k, y ≠ .intrinsic k := by
    rintro k rfl
    cases shape
  have notHandle : ∀ k : Intrinsic, b ≠ k.handle := fun k h => by
    subst h
    exact notLeaf k (Option.some.inj (chain.middle.symm.trans (v.store.node?_handle k)))
  rcases hab.composable_ways chain.left chain.middle chain.leftNode chain.middleNode with
    rfl | h | rfl | h | ⟨_, hm, -⟩ | ⟨_, -, hm, -⟩ | ⟨sx, -, left⟩
  · exact AtOnce.fits (.bottom rfl)
  · exact absurd h (notHandle .unknown)
  · exact hbc
  · rcases (leafPair?_eq_some_true chain.left chain.middle).1 h with
      ⟨_, _, _, h, -⟩ | ⟨_, _, _, h, -⟩
    · exact absurd h (notLeaf _)
    · exact absurd h (notLeaf _)
  · rw [chain.noUnion] at hm; cases hm
  · rw [notUnion] at hm; cases hm
  rcases hbc.composable_ways chain.middle chain.right chain.middleNode chain.rightNode with
    h | rfl | rfl | h | ⟨_, hm, -⟩ | ⟨members, -, hm, h⟩ | ⟨-, sz, right⟩
  · exact absurd h (notHandle .never)
  · exact AtOnce.fits (.top (.inl rfl))
  · exact hab
  · rcases (leafPair?_eq_some_true chain.middle chain.right).1 h with
      ⟨_, _, h, -, -⟩ | ⟨_, _, rfl, -, -⟩
    · exact absurd h (notLeaf _)
    · cases shape
  · rw [notUnion] at hm; cases hm
  · rcases h.cases with ⟨m, mem, hf⟩ | ⟨he, -⟩
    · exact chain.viaMember members hm ⟨m, mem, below members hm m mem hf⟩
    · exact absurd he (notHandle .boolean)
  · have leaf : x.isLeaf = false := by cases x <;> first | rfl | cases sx
    refine fits_of_apart chain.left chain.right (.inl leaf) fun apart => ?_
    exact (fits_iff_matches apart chain.left chain.right sx sz).2
      (left.trans exact chain.leftNode chain.middleNode chain.rightNode right parts)

end

/-- **FITTING IS TRANSITIVE.** -/
theorem Fits.trans (exact : v.flags.exactTupleArity = true) {n : Nat} :
    ∀ {i j k : Nat} {a b c : Handle}, i + j + k = n →
      v.store.madeWithin v.store.isComposable i a = true →
      v.store.madeWithin v.store.isComposable j b = true →
      v.store.madeWithin v.store.isComposable k c = true →
      v.Fits a b → v.Fits b c → v.Fits a c := by
  -- on how deep the three nest together; wherever a rule is looked at, one of them gets smaller
  induction n using Nat.strongRecOn with
  | _ n ih =>
    intro i j k a b c hn hi hj hk hab hbc
    obtain ⟨i, x, rfl, ha, px, xs⟩ := Store.exists_of_madeWithin hi
    obtain ⟨j, y, rfl, hb, py, ys⟩ := Store.exists_of_madeWithin hj
    obtain ⟨k, z, rfl, hc, pz, zs⟩ := Store.exists_of_madeWithin hk
    have ly := Store.isLazy_of_isComposable _ py
    have lz := Store.isLazy_of_isComposable _ pz
    cases hxs : v.store.alternatives? x with
    | some members =>
      have each := hab.alternative ha hb ly hxs (fits_self hi ha hxs)
      refine fits_of_apart ha hc (.inl (isLeaf_of_alternatives? hxs)) fun apart => ?_
      refine (fits_alternatives_iff apart ha hc lz hxs).2 fun m hm => ?_
      exact ih (i + (j + 1) + (k + 1)) (by omega) rfl
        (xs m (Store.mem_components_of_alternatives? hxs hm)) hj hk (each m hm) hbc
    | none =>
      have chain : v.Chain a b c x y z := by
        refine ⟨ha, hb, hc, px, py, pz, hxs, fun members hz h => ?_⟩
        obtain ⟨m, hm, h⟩ := h
        exact fits_of_member hi (zs m (Store.mem_components_of_alternatives? hz hm)) hc hz hm h
      have below : ∀ members, v.store.alternatives? z = some members →
          ∀ m ∈ members, v.Fits b m → v.Fits a m := fun members hz m hm h =>
        ih (i + 1 + (j + 1) + k) (by omega) rfl hi hj
          (zs m (Store.mem_components_of_alternatives? hz hm)) hab h
      cases hys : v.store.alternatives? y with
      | some members =>
        refine chain.union hab hbc hys hj hk fun m hm h h' => ?_
        exact ih (i + 1 + j + (k + 1)) (by omega) rfl hi
          (ys m (Store.mem_components_of_alternatives? hys hm)) hk h h'
      | none =>
        rcases isLeaf_or_isShape (Store.isOrdinary_of_isComposable py) hys
          (Store.kind_of_isComposable py) with leaf | shape
        · exact chain.leaf hab hbc leaf below
        · refine chain.shape exact hab hbc shape below fun a ha b hb c hc => ⟨?_, ?_⟩
          · exact ih (i + j + k) (by omega) rfl (xs a ha) (ys b hb) (zs c hc)
          · exact ih (k + j + i) (by omega) rfl (zs c hc) (ys b hb) (xs a ha)

end View

/-! ## §6. What the checker finds -/

/-- **FITTING IS TRANSITIVE**, and so is what is found, where the last run hits no limit. -/
theorem relate_trans (run : Runner ρ) (policy : Policy) (σ : Store ρ) (a b c : Handle)
    (exact : policy.flags.exactTupleArity = true)
    (ha : σ.MadeOf σ.isComposable a) (hb : σ.MadeOf σ.isComposable b)
    (hc : σ.MadeOf σ.isComposable c)
    (hab : (Store.relate run policy .assignable a b σ).1.related = true)
    (hbc : (Store.relate run policy .assignable b c σ).1.related = true)
    (within : (Store.relate run policy .assignable a c σ).1.exceeded = false) :
    (Store.relate run policy .assignable a c σ).1.related = true := by
  have tame : ∀ {h}, σ.MadeOf σ.isComposable h → (View.of run σ policy.flags).Tame run h :=
    fun h => (h.lazyFree Store.isLazy_of_isComposable).atRest.tame
  -- what is found is right, for no question about keys comes up
  have sound : ∀ {s t}, σ.MadeOf σ.isComposable s → σ.MadeOf σ.isComposable t →
      (Store.relate run policy .assignable s t σ).1.related = true →
      (View.of run σ policy.flags).Fits s t := by
    intro s t hs ht h
    have idle := idle_new run σ policy
    rw [relate_fst] at h
    have decided : Question.KeysDecided run .assignable s t ⟨σ, .new policy⟩ :=
      idle.keysDecided (tame hs) (tame ht)
        (.inl (hs.not_posesKeys Store.isPlain_of_isComposable))
    exact (idle.holds_sound exact_new (tame hs) (tame ht) decided h).1
  have fits := sound ha hb hab
  have fits' := sound hb hc hbc
  obtain ⟨⟨i, hi⟩, ⟨j, hj⟩, ⟨k, hk⟩⟩ := And.intro ha (And.intro hb hc)
  have forward : (View.of run σ policy.flags).Relates .assignable a c :=
    ⟨fits.trans exact rfl hi hj hk fits', nofun⟩
  exact (relate_iff (ha.lazyFree Store.isLazy_of_isComposable).atRest
    (hc.lazyFree Store.isLazy_of_isComposable).atRest within).2 forward

/-- Lists of one truth value, of truth values, and of the two literals. -/
def truthLists : Listing Handle where
  nodes := [.literal (.boolean true), .literal (.boolean false), .union ⟨0⟩, .array ⟨13⟩,
    .array .boolean, .array ⟨15⟩]
  lists := [[⟨13⟩, ⟨14⟩]]

/-- The truth values stand between one of them and the union of both. -/
theorem relate_truthLists :
    (Store.relate pure { flags := { exactTupleArity := true } } .assignable ⟨16⟩ ⟨17⟩
        truthLists.store).1.related = true ∧
      (Store.relate pure { flags := { exactTupleArity := true } } .assignable ⟨17⟩ ⟨18⟩
        truthLists.store).1.related = true ∧
      (Store.relate pure { flags := { exactTupleArity := true } } .assignable ⟨16⟩ ⟨18⟩
        truthLists.store).1.related = true := by
  have first : (Store.relate pure { flags := { exactTupleArity := true } } .assignable ⟨16⟩ ⟨17⟩
      truthLists.store).1.related = true := by
    rw [relate_eq_finding]
    decide +kernel
  have second : (Store.relate pure { flags := { exactTupleArity := true } } .assignable ⟨17⟩ ⟨18⟩
      truthLists.store).1.related = true := by
    rw [relate_eq_finding]
    decide +kernel
  have within : (Store.relate pure { flags := { exactTupleArity := true } } .assignable ⟨16⟩ ⟨18⟩
      truthLists.store).1.exceeded = false := by
    rw [relate_eq_finding]
    decide +kernel
  exact ⟨first, second, relate_trans pure _ truthLists.store ⟨16⟩ ⟨17⟩ ⟨18⟩ rfl
    ⟨2, by decide +kernel⟩ ⟨2, by decide +kernel⟩ ⟨3, by decide +kernel⟩ first second within⟩

end Assignability
