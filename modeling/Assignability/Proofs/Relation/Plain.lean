/-
  Assignability.Proofs.Relation.Plain
  ───────────────────────────────────
  **PLAIN DESCRIPTORS.**

  A plain descriptor is built without declarations, brands, records and
  the unchecked type, and its objects have required fields alone.  Such a
  descriptor is finite, no question about keys comes up where it is
  compared, and what the rules ask of its parts can be said by position
  and by name:

    • `sequencesFit_atLeast_iff` — tuples, with exact arity,
    • `sequencesFit_exact_iff` — parameters,
    • `isTrue_eval_objects_iff` — objects, field by field,
    • `FitAsOne.fields` — objects that are compared as one.
-/
import Assignability.Proofs.Relation.Dispatch
import Assignability.Proofs.Relation.IndexSignature

namespace Assignability

variable {ρ : Type}

/-! ## §1. Descriptors made of certain nodes -/

/-- Whether an object has required fields alone. -/
def Layout.isPlain (s : Layout) : Bool := s.index.isNone && s.fields.all fun f => !f.optional

/-- The fields of a plain layout are required. -/
theorem Layout.required_of_isPlain {s : Layout} (plain : s.isPlain = true) {f : Field}
    (hf : f ∈ s.fields) : f.optional = false := by
  simpa using List.all_eq_true.1 (Bool.and_eq_true_iff.1 plain).2 f hf

/-- A plain layout has no index signature. -/
theorem Layout.index_of_isPlain {s : Layout} (plain : s.isPlain = true) : s.index = none :=
  Option.isNone_iff_eq_none.1 (Bool.and_eq_true_iff.1 plain).1

/-- A field that is found is one of the layout, of the name looked for. -/
theorem Layout.of_field? {s : Layout} {name : Atom} {f : Field} (h : s.field? name = some f) :
    f ∈ s.fields ∧ f.name = name :=
  ⟨List.mem_of_find?_eq_some h, by simpa using List.find?_some h⟩

namespace Store

variable {σ : Store ρ} {p : Node → Bool} {h g : Handle} {n : Nat}

/-- Whether a node is one of a plain descriptor. -/
def isPlain (σ : Store ρ) : Node → Bool
  | .intrinsic k => k ≠ .any
  | .object shape => (σ.object shape).isPlain
  | .record _ _ | .branded _ _ | .lazy _ => false
  | _ => true

/-- Nodes with one key have one handle. -/
theorem handle_eq_of_key_eq {n m : Node} (hh : σ.node? h = some n) (hg : σ.node? g = some m)
    (same : n.key = m.key) : h = g := by
  have := Table.get?_injective hh hg same
  cases h
  cases g
  exact congrArg Handle.mk this

/-- Equal nodes have one handle. -/
theorem node?_injective {node : Node} (hh : σ.node? h = some node) (hg : σ.node? g = some node) :
    h = g := handle_eq_of_key_eq hh hg rfl

/-- Whether a handle and its parts are nodes with a property that nest less deep than `n`. -/
def madeWithin (σ : Store ρ) (p : Node → Bool) : Nat → Handle → Bool
  | 0, _ => false
  | n + 1, h =>
    match σ.node? h with
    | some node => p node && (σ.components node).all (madeWithin σ p n)
    | none => false

/-- A handle that is made of nodes with a property, itself and all its parts. -/
def MadeOf (σ : Store ρ) (p : Node → Bool) (h : Handle) : Prop := ∃ n, σ.madeWithin p n h = true

/-- A type is made within one level more than its components. -/
theorem madeWithin_succ : σ.madeWithin p (n + 1) h = true ↔ ∃ node, σ.node? h = some node ∧
    p node = true ∧ ∀ g ∈ σ.components node, σ.madeWithin p n g = true := by
  rw [madeWithin]
  cases σ.node? h with
  | none => simp
  | some node => simp

/-- What is made at all has a node of that kind, and components made within less. -/
theorem exists_of_madeWithin (hn : σ.madeWithin p n h = true) : ∃ m node, n = m + 1 ∧
    σ.node? h = some node ∧ p node = true ∧
    ∀ g ∈ σ.components node, σ.madeWithin p m g = true := by
  cases n with
  | zero => cases hn
  | succ m =>
    obtain ⟨node, hs, hp, parts⟩ := madeWithin_succ.1 hn
    exact ⟨m, node, rfl, hs, hp, parts⟩

/-- A weaker condition on nodes makes more types. -/
theorem madeWithin_mono {q : Node → Bool}
    (imp : ∀ g node, σ.node? g = some node → p node = true → q node = true) :
    ∀ {h : Handle}, σ.madeWithin p n h = true → σ.madeWithin q n h = true := by
  induction n with
  | zero => exact fun h => nomatch h
  | succ n ih =>
    intro h hn
    obtain ⟨node, hs, hp, parts⟩ := madeWithin_succ.1 hn
    exact madeWithin_succ.2 ⟨node, hs, imp h node hs hp, fun g hg => ih (parts g hg)⟩

/-- The same holds without the depth. -/
theorem MadeOf.mono {q : Node → Bool}
    (imp : ∀ g node, σ.node? g = some node → p node = true → q node = true)
    (hh : σ.MadeOf p h) : σ.MadeOf q h :=
  Exists.imp (fun _ hn => madeWithin_mono imp hn) hh

/-- A plain node is ordinary. -/
theorem isOrdinary_of_isPlain {node : Node} (hp : σ.isPlain node = true) :
    node.isOrdinary = true := by
  cases node <;> first | rfl | cases hp

/-- A plain node is not `any`. -/
theorem ne_any_of_isPlain {node : Node} (hn : σ.node? h = some node)
    (hp : σ.isPlain node = true) : h ≠ .any := by
  rintro rfl
  obtain rfl := Option.some.inj ((σ.node?_handle .any).symm.trans hn)
  cases hp

/-- Alternatives are components of their node. -/
theorem mem_components_of_alternatives? {node : Node} {members : List Handle}
    (ha : σ.alternatives? node = some members) (hg : g ∈ members) : g ∈ σ.components node := by
  cases node with
  | union l | enumeration l =>
    obtain rfl := Option.some.inj ha
    exact hg
  | _ => cases ha

/-- The handles that have a truth value: its literal, and an enumeration that lists the literal. -/
theorem exists_literal_of_hasBoolean (σ : Store ρ) {b : Bool} (hb : σ.hasBoolean b h = true) :
    ∃ g, σ.node? g = some (.literal (.boolean b)) ∧
      (g = h ∨ ∃ l, σ.node? h = some (.enumeration l) ∧ g ∈ σ.list l) := by
  unfold hasBoolean at hb
  split at hb
  · next c hn =>
    obtain rfl := beq_iff_eq.1 hb
    exact ⟨h, hn, .inl rfl⟩
  · next l hn =>
    obtain ⟨g, hg, hb⟩ := List.any_eq_true.1 hb
    split at hb
    · next c hm =>
      obtain rfl := beq_iff_eq.1 hb
      exact ⟨g, hm, .inr ⟨l, hn, hg⟩⟩
    · cases hb
  · cases hb

/-- A made type has a node of that kind, and made components. -/
theorem MadeOf.node (hh : σ.MadeOf p h) : ∃ node, σ.node? h = some node ∧ p node = true ∧
    ∀ g ∈ σ.components node, σ.MadeOf p g := by
  obtain ⟨n, hn⟩ := hh
  obtain ⟨m, node, -, hs, hp, parts⟩ := exists_of_madeWithin hn
  exact ⟨node, hs, hp, fun g hg => ⟨m, parts g hg⟩⟩

/-- The parts of a made type are made. -/
theorem MadeOf.part (hh : σ.MadeOf p h) (hg : g ∈ σ.parts h) : σ.MadeOf p g := by
  obtain ⟨node, hs, -, parts⟩ := hh.node
  rw [parts_of_node hs] at hg
  exact parts g hg

/-- A plain node is not lazy. -/
theorem isLazy_of_isPlain {node : Node} (hp : σ.isPlain node = true) : node.isLazy = false :=
  Node.isLazy_of_isOrdinary (isOrdinary_of_isPlain hp)

/-- A type made without lazies within a depth nests within it. -/
theorem nests_of_madeWithin (noLazy : ∀ node, p node = true → node.isLazy = false) {n : Nat} :
    ∀ {h : Handle}, σ.madeWithin p n h = true → σ.nests n h = true := by
  induction n with
  | zero => exact fun h => nomatch h
  | succ n ih =>
    intro h hn
    obtain ⟨node, hs, hp, parts⟩ := madeWithin_succ.1 hn
    refine nests_succ.2 ⟨?_, fun g hg => ih (parts g ?_)⟩
    · exact lazyId?_of_notLazy hs (noLazy node hp)
    · rwa [parts_of_node hs] at hg

/-- A type made without lazies has none. -/
theorem MadeOf.lazyFree (noLazy : ∀ node, p node = true → node.isLazy = false)
    (hh : σ.MadeOf p h) : σ.LazyFree h :=
  hh.imp fun _ hn => nests_of_madeWithin noLazy hn

section

variable (plain : ∀ node, p node = true → σ.isPlain node = true)
include plain

/-- Plain types have no key types. -/
theorem MadeOf.keyTypes_eq_nil (hh : σ.MadeOf p h) : σ.keyTypes h = [] := by
  obtain ⟨node, hs, hp, -⟩ := hh.node
  unfold keyTypes
  rw [hs]
  cases node with
  | object shape =>
    dsimp only
    rw [Layout.index_of_isPlain (plain _ hp)]
    rfl
  | record key value => exact nomatch plain _ hp
  | _ => rfl

/-- What is reached from a made type is made. -/
theorem MadeOf.of_reaches (hh : σ.MadeOf p h) (hg : σ.Reaches h g) : σ.MadeOf p g := by
  refine hg.of_closed (P := σ.MadeOf p) (fun x y hx hxy => ?_) hh
  cases hxy with
  | part hy => exact hx.part hy
  | recorded hd _ =>
    rw [(hx.lazyFree fun n hn => isLazy_of_isPlain (plain n hn)).lazyId?] at hd
    cases hd

/-- Nothing in a plain descriptor is compared as a key. -/
theorem MadeOf.not_posesKeys {run : Runner ρ} {flags : Flags} {t : Handle} (hh : σ.MadeOf p h)
    (a b : Handle) : ¬ (View.of run σ flags).PosesKeys h t a b :=
  (hh.lazyFree fun n hn => isLazy_of_isPlain (plain n hn)).atRest.not_posesKeys
    (fun _ hg => (hh.of_reaches plain hg).keyTypes_eq_nil plain) a b

end

end Store

/-! ## §2. Sequences by position -/

namespace Sequence

variable {s t : Sequence} {a b : Handle}

/-- The type at a position, which past the items is that of the rest. -/
def typeAt? (s : Sequence) (i : Nat) : Option Handle := s.items[i]?.or s.rest

/-- Before its end a sequence has its elements. -/
theorem typeAt?_of_lt {i : Nat} (h : i < s.items.length) : s.typeAt? i = some s.items[i] := by
  unfold typeAt?
  rw [List.getElem?_eq_getElem h]
  rfl

/-- Behind its end it has the rest. -/
theorem typeAt?_of_le {i : Nat} (h : s.items.length ≤ i) : s.typeAt? i = s.rest := by
  unfold typeAt?
  rw [List.getElem?_eq_none h]
  rfl

/-- The parts of a sequence are the types at its positions. -/
theorem mem_parts_iff : a ∈ s.parts ↔ ∃ i, s.typeAt? i = some a := by
  unfold parts
  rw [List.mem_append, Option.mem_toList]
  constructor
  · rintro (h | h)
    · obtain ⟨i, hi, rfl⟩ := List.mem_iff_getElem.1 h
      exact ⟨i, typeAt?_of_lt hi⟩
    · exact ⟨s.items.length, (typeAt?_of_le (Nat.le_refl _)).trans h⟩
  · rintro ⟨i, hi⟩
    by_cases lt : i < s.items.length
    · rw [typeAt?_of_lt lt] at hi
      exact .inl (Option.some.inj hi ▸ List.getElem_mem lt)
    · rw [typeAt?_of_le (Nat.le_of_not_lt lt)] at hi
      exact .inr hi

/-- The parts that are compared stand at the same position. -/
theorem mem_pairs_iff (arity : t.items.length ≤ s.items.length) :
    (a, b) ∈ s.pairs t ↔ ∃ i, s.typeAt? i = some a ∧ t.typeAt? i = some b := by
  unfold pairs
  rw [List.mem_append]
  constructor
  -- a pair of elements, or the rest of the target against what is left of the source
  · rintro (h | h)
    · obtain ⟨i, hi⟩ := List.mem_iff_getElem?.1 h
      obtain ⟨ha, hb⟩ := List.getElem?_zip_eq_some.1 hi
      exact ⟨i, by simp [typeAt?, ha], by simp [typeAt?, hb]⟩
    · cases hr : t.rest with
      | none => rw [hr] at h; cases h
      | some rest =>
        rw [hr] at h
        obtain ⟨item, hi, he⟩ := List.mem_map.1 h
        obtain ⟨rfl, rfl⟩ := Prod.mk.inj he
        rcases List.mem_append.1 hi with hi | hi
        · obtain ⟨i, hi⟩ := List.mem_iff_getElem?.1 hi
          rw [List.getElem?_drop] at hi
          exact ⟨t.items.length + i, by simp [typeAt?, hi], by rw [typeAt?_of_le (by omega), hr]⟩
        · exact ⟨s.items.length, (typeAt?_of_le (Nat.le_refl _)).trans (Option.mem_toList.1 hi),
            by rw [typeAt?_of_le arity, hr]⟩
  · rintro ⟨i, ha, hb⟩
    -- before the end of the target both have an element; behind it the target has its rest
    by_cases lt : i < t.items.length
    · rw [typeAt?_of_lt (by omega)] at ha
      rw [typeAt?_of_lt lt] at hb
      refine .inl (List.mem_iff_getElem?.2 ⟨i, List.getElem?_zip_eq_some.2 ⟨?_, ?_⟩⟩)
      · rw [List.getElem?_eq_getElem (by omega), ha]
      · rw [List.getElem?_eq_getElem lt, hb]
    · rw [typeAt?_of_le (Nat.le_of_not_lt lt)] at hb
      rw [hb]
      refine .inr (List.mem_map.2 ⟨a, List.mem_append.2 ?_, rfl⟩)
      by_cases within : i < s.items.length
      · rw [typeAt?_of_lt within] at ha
        refine .inl (List.mem_iff_getElem?.2 ⟨i - t.items.length, ?_⟩)
        rw [List.getElem?_drop, Nat.add_sub_cancel' (Nat.le_of_not_lt lt),
          List.getElem?_eq_getElem within, ha]
      · rw [typeAt?_of_le (Nat.le_of_not_lt within)] at ha
        exact .inr (Option.mem_toList.2 ha)

end Sequence

namespace View

variable {v : View ρ}

/-- **WITH EXACT ARITY A TUPLE FITS WHERE IT IS LONG ENOUGH AND ALL ITS PARTS FIT WHAT STANDS AT
THEIR POSITION.** -/
theorem sequencesFit_atLeast_iff {s t : Sequence} (exact : v.flags.exactTupleArity = true) :
    v.SequencesFit .atLeast s t ↔ t.items.length ≤ s.items.length ∧
      ∀ i a, s.typeAt? i = some a → ∃ b, t.typeAt? i = some b ∧ v.Fits a b := by
  have arity : s.arityFits v.flags .atLeast t = true ↔ t.items.length ≤ s.items.length ∧
      (t.rest = none → s.items.length = t.items.length ∧ s.rest = none) := by
    unfold Sequence.arityFits
    cases t.rest with
    | none => cases s.rest <;> simp [exact]; omega
    | some rest => simp
  unfold SequencesFit
  rw [arity]
  constructor
  · rintro ⟨⟨long, closed⟩, fits⟩
    refine ⟨long, fun i a ha => ?_⟩
    cases hb : t.typeAt? i with
    | some b => exact ⟨b, rfl, fits (a, b) ((Sequence.mem_pairs_iff long).2 ⟨i, ha, hb⟩)⟩
    | none =>
      -- past the items of a closed target the source has nothing either
      have past : t.items.length ≤ i := by
        refine Nat.le_of_not_lt fun lt => ?_
        rw [Sequence.typeAt?_of_lt lt] at hb
        cases hb
      rw [Sequence.typeAt?_of_le past] at hb
      obtain ⟨same, noRest⟩ := closed hb
      rw [Sequence.typeAt?_of_le (by omega), noRest] at ha
      cases ha
  · rintro ⟨long, fits⟩
    refine ⟨⟨long, fun hr => ?_⟩, fun ⟨a, b⟩ hab => ?_⟩
    · have ends : ∀ i, t.items.length ≤ i → s.typeAt? i = none := by
        intro i hi
        cases ha : s.typeAt? i with
        | none => rfl
        | some a =>
          obtain ⟨b, hb, -⟩ := fits i a ha
          rw [Sequence.typeAt?_of_le hi, hr] at hb
          cases hb
      constructor
      · refine Nat.le_antisymm (Nat.le_of_not_lt fun longer => ?_) long
        have past := ends t.items.length (Nat.le_refl _)
        rw [Sequence.typeAt?_of_lt longer] at past
        cases past
      · exact (Sequence.typeAt?_of_le (Nat.le_refl _)).symm.trans (ends _ long)
    · obtain ⟨i, ha, hb⟩ := (Sequence.mem_pairs_iff long).1 hab
      obtain ⟨b', hb', hf⟩ := fits i a ha
      obtain rfl := Option.some.inj (hb.symm.trans hb')
      exact hf

/-- Parameters are as many, and each fits what stands at its position. -/
theorem sequencesFit_exact_iff {s t : Sequence} :
    v.SequencesFit .exact s t ↔ s.items.length = t.items.length ∧
      ∀ i a b, s.typeAt? i = some a → t.typeAt? i = some b → v.Fits a b := by
  unfold SequencesFit Sequence.arityFits
  rw [beq_iff_eq]
  refine and_congr_right fun same => ?_
  constructor
  · intro fits i a b ha hb
    exact fits (a, b) ((Sequence.mem_pairs_iff (Nat.le_of_eq same.symm)).2 ⟨i, ha, hb⟩)
  · rintro fits ⟨a, b⟩ hab
    obtain ⟨i, ha, hb⟩ := (Sequence.mem_pairs_iff (Nat.le_of_eq same.symm)).1 hab
    exact fits i a b ha hb

/-! ## §3. Objects by name -/

/-- An object fits one with required fields alone where it always has these fields and they fit. -/
theorem isTrue_eval_objects_iff {s t : Layout} (plain : t.isPlain = true) :
    ((Query.objects s t).eval v v.keysFit v.fits).isTrue = true
      ↔ ∀ f ∈ t.fields, ∃ g, s.field? f.name = some g ∧ g.isAlwaysPresent = true ∧
        v.Fits g.type f.type := by
  unfold Query.objects
  rw [Layout.index_of_isPlain plain, Query.isTrue_eval_andThen, Bool.and_eq_true,
    Query.isTrue_eval_every, List.all_eq_true]
  refine (and_iff_left rfl).trans (forall₂_congr fun f hf => ?_)
  rw [isTrue_eval_field]
  cases hg : s.field? f.name with
  | none => simp [Layout.required_of_isPlain plain hf]
  | some g => simp [Layout.required_of_isPlain plain hf]

/-- The layouts of members that are all objects. -/
theorem eval_layouts {keys fits : Handle → Handle → Bool} {members : List Handle} :
    ∀ {shapes : List Layout}, (Query.layouts members).eval v keys fits = some shapes →
      (∀ m ∈ members, ∃ o, v.store.node? (v.stands m) = some (.object o)) ∧
      ∀ s ∈ shapes, ∃ m ∈ members, ∃ o, v.store.node? (v.stands m) = some (.object o) ∧
        s = v.store.object o := by
  -- along the members: the layouts are given only if each of them stands for an object
  induction members with
  | nil =>
    intro shapes h
    obtain rfl := Option.some.inj h
    exact ⟨nofun, nofun⟩
  | cons m ms ih =>
    intro shapes h
    unfold Query.layouts at h
    have stands : (Query.resolved m : Query ρ Handle).eval v keys fits = v.stands m := rfl
    simp only [Query.bind_eq, Query.eval_bind, Query.eval_store, stands] at h
    split at h
    · next shape hm =>
      rw [Query.eval_bind] at h
      obtain ⟨rest, hr, rfl⟩ := Option.map_eq_some_iff.1 h
      obtain ⟨each, found⟩ := ih hr
      constructor
      · exact List.forall_mem_cons.2 ⟨⟨shape, hm⟩, each⟩
      · refine List.forall_mem_cons.2 ⟨⟨m, List.mem_cons_self, shape, hm, rfl⟩, fun s hs => ?_⟩
        obtain ⟨m', hm', o⟩ := found s hs
        exact ⟨m', List.mem_cons_of_mem m hm', o⟩
    · cases h

/-- A field that merged objects are required to have is fit by that of one of them. -/
theorem isTrue_eval_mergedField {sources : List Layout} {f : Field} (required : f.optional = false)
    (h : ((Query.mergedField sources f).eval v v.keysFit v.fits).isTrue = true) :
    ∃ s ∈ sources, ∃ g, s.field? f.name = some g ∧ v.Fits g.type f.type := by
  unfold Query.mergedField at h
  dsimp only at h
  split at h
  · rw [required] at h
    cases h
  · split at h
    · cases h
    · rw [Query.isTrue_eval_any, List.any_eq_true] at h
      obtain ⟨g, hg, hf⟩ := h
      obtain ⟨s, hs, hg⟩ := List.mem_filterMap.1 hg
      rw [Query.eval_related, Answer.isTrue_ofBool, fits_eq_true] at hf
      exact ⟨s, hs, g, hg, hf⟩

/-- Objects that fit a target as one: the target is an object, and each of its fields is fit by
that of some member. -/
theorem FitAsOne.fields {members : List Handle} {target : Node} (h : v.FitAsOne members target)
    (plain : v.store.isPlain target = true) : ∃ p, target = .object p ∧
      (∀ m ∈ members, ∃ o, v.store.node? (v.stands m) = some (.object o)) ∧
      ∀ f ∈ (v.store.object p).fields, ∃ m ∈ members, ∃ o g,
        v.store.node? (v.stands m) = some (.object o) ∧
        (v.store.object o).field? f.name = some g ∧ v.Fits g.type f.type := by
  unfold FitAsOne Query.asOneObject at h
  cases target with
  | object p =>
    dsimp only at h
    rw [Query.bind_eq, Query.eval_bind] at h
    cases hl : (Query.layouts members).eval v v.keysFit v.fits with
    | none => rw [hl] at h; cases h
    | some shapes =>
      obtain ⟨each, found⟩ := eval_layouts hl
      rw [hl] at h
      change ((Query.merged shapes (v.store.object p)).eval v v.keysFit v.fits).isTrue = true at h
      unfold Query.merged at h
      rw [Query.isTrue_eval_andThen, Bool.and_eq_true, Query.isTrue_eval_every,
        List.all_eq_true] at h
      refine ⟨p, rfl, each, fun f hf => ?_⟩
      -- the field is required, so some member declares it, and one of these fits alone
      obtain ⟨s, hs, g, hg, fits⟩ := isTrue_eval_mergedField
        (Layout.required_of_isPlain plain hf) (h.1 f hf)
      obtain ⟨m, hm, o, ho, rfl⟩ := found s hs
      exact ⟨m, hm, o, g, ho, hg, fits⟩
  | _ => cases h

end View

end Assignability
