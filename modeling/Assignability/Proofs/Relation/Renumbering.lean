/-
  Assignability.Proofs.Relation.Renumbering
  ─────────────────────────────────────────
  **THE RULES DO NOT SEE NUMBERS.**

  Handles and names have numbers, and lists that stand for sets are kept
  in the order of these.  The rules go over such lists, look names up in
  them and compare handles.  None of it shows in what they decide: asked
  about handles that mirror each other in two stores, they come to the
  same (`Abreast.concur_nodes`), and so does the comparison as a whole
  (`Abreast.fits_iff`).

  There is one exception.  A number is a key by its text, and the fields
  of two texts of one number are told apart by the numbers of their names.
  So no key type of a record may list a number (`Store.ListsNumber`).
-/
import Assignability.Proofs.Relation.Mirror

namespace Assignability

variable {ρ ρ' : Type}

/-! ## §1. Views side by side -/

/-- Whether a key type is a number, or has one among its members. -/
inductive Store.ListsNumber (σ : Store ρ) : Handle → Prop
  | literal {key : Handle} {x : Binary64} (h : σ.node? key = some (.literal (.number x))) :
    ListsNumber σ key
  | member {key m : Handle} {n : Node} (hn : σ.node? key = some n) (joint : n.isJoint = true)
    (hm : m ∈ σ.components n) (h : ListsNumber σ m) : ListsNumber σ key

/-- A relation between the handles of two views that goes through their parts, one to one.  No
record below has a number among its keys. -/
structure View.Abreast (v : View ρ) (v' : View ρ') (B : Handle → Handle → Prop) : Prop where
  flags : v.flags = v'.flags
  once : v.store.SpellsOnce
  once' : v'.store.SpellsOnce
  nodes : ∀ {a b}, B a b → ∃ n m, v.store.node? a = some n ∧ v'.store.node? b = some m ∧
    n.Mirrors v.store v'.store B m
  one : ∀ {a b c d}, B a c → B b d → (a = b ↔ c = d)
  named : ∀ {a b key value}, B a b → v.store.node? a = some (.record key value) →
    ¬ v.store.ListsNumber key

section

variable {σ : Store ρ} {τ : Store ρ'} {B : Handle → Handle → Prop} {n m : Node}

/-- Mirrored nodes are of one kind. -/
theorem Node.Mirrors.kind (h : n.Mirrors σ τ B m) : n.kind = m.kind := by
  cases h <;> rfl

/-- Mirrored nodes are not lazy. -/
theorem Node.Mirrors.isLazy (h : n.Mirrors σ τ B m) : n.isLazy = false := by
  cases h <;> rfl

/-- Mirrored fields are always there together. -/
theorem Field.Mirrors.isAlwaysPresent {f g : Field} (h : f.Mirrors σ τ B g) :
    f.isAlwaysPresent = g.isAlwaysPresent := by
  unfold Field.isAlwaysPresent
  rw [h.optional, h.defaulted]

/-- A field is found under its name in both layouts or in neither. -/
theorem Layout.Mirrors.field? {s t : Layout} (once : σ.SpellsOnce) (once' : τ.SpellsOnce)
    (h : s.Mirrors σ τ B t) {a b : Atom} (names : σ.Twins τ a b) :
    Option.Rel (Field.Mirrors σ τ B) (s.field? a) (t.field? b) := by
  have found : ∀ {s : Layout} {a f}, s.field? a = some f → f ∈ s.fields ∧ f.name = a :=
    fun hf => ⟨List.mem_of_find?_eq_some hf, by simpa using List.find?_some hf⟩
  -- found on one side, it is mirrored by a field of the same text on the other
  cases hs : s.field? a with
  | some f =>
    obtain ⟨hf, rfl⟩ := found hs
    obtain ⟨g, hg, fg⟩ := h.fields.left f hf
    obtain rfl := fg.name.unique once' names
    rw [h.normal'.field?_name hg]
    exact .some fg
  | none =>
    cases ht : t.field? b with
    | none => exact .none
    | some g =>
      obtain ⟨hg, rfl⟩ := found ht
      obtain ⟨f, hf, fg⟩ := h.fields.right g hg
      obtain rfl := fg.name.flip.unique once names.flip
      rw [h.normal.field?_name hf] at hs
      cases hs

end

/-- The layout of what a handle stands for, if that is an object. -/
def View.layout? (v : View ρ) (h : Handle) : Option Layout :=
  match v.store.node? (v.stands h) with
  | some (.object shape) => some (v.store.object shape)
  | _ => none

/-- There are layouts where all members are objects. -/
theorem Query.eval_layouts_eq (v : View ρ) (keys fits : Handle → Handle → Bool)
    (members : List Handle) : (layouts members).eval v keys fits
      = if members.all fun m => (v.layout? m).isSome then some (members.filterMap v.layout?)
        else none := by
  -- along the members; both sides give up at the first one that is no object
  induction members with
  | nil => rfl
  | cons m ms ih =>
    have step : (layouts (m :: ms)).eval v keys fits
        = (v.layout? m).bind fun s => ((layouts ms).eval v keys fits).map (s :: ·) := by
      have stands : (resolved m : Query ρ Handle).eval v keys fits = v.stands m := rfl
      rw [layouts, View.layout?]
      simp only [bind_eq, eval_bind, eval_store, stands]
      cases v.store.node? (v.stands m) with
      | none => rfl
      | some n =>
        cases n with
        | object shape => exact eval_bind ..
        | _ => rfl
    rw [step, ih, List.all_cons, List.filterMap_cons]
    cases v.layout? m with
    | none => rfl
    | some s =>
      rw [Option.bind_some, Option.isSome_some, Bool.true_and]
      split <;> rfl

namespace View.Abreast

variable {v : View ρ} {v' : View ρ'} {B : Handle → Handle → Prop} {a b c d : Handle}

/-- Types that mirror each other stand for themselves. -/
theorem stands (h : v.Abreast v' B) (hab : B a b) : v.stands a = a ∧ v'.stands b = b := by
  obtain ⟨n, m, hn, hm, mirrors⟩ := h.nodes hab
  have notLazy := mirrors.isLazy
  have notLazy' := mirrors.flip.isLazy
  exact ⟨stands_of_node hn notLazy, stands_of_node hm notLazy'⟩

/-- Built-in types are related to themselves alone. -/
theorem handle_iff (h : v.Abreast v' B) (hab : B a b) (k : Intrinsic) :
    a = k.handle ↔ b = k.handle := by
  obtain ⟨n, m, hn, hm, mirrors⟩ := h.nodes hab
  constructor
  · rintro rfl
    rw [v.store.node?_handle] at hn
    obtain rfl := Option.some.inj hn
    cases mirrors with
    | intrinsic => exact v'.store.node?_injective hm (v'.store.node?_handle k)
  · rintro rfl
    rw [v'.store.node?_handle] at hm
    obtain rfl := Option.some.inj hm
    cases mirrors with
    | intrinsic => exact v.store.node?_injective hn (v.store.node?_handle k)

/-- A type is a member where its mirror is one. -/
theorem contains_eq (h : v.Abreast v' B) {as bs : List Handle} (members : Matched B as bs)
    (hab : B a b) : as.contains a = bs.contains b := by
  rw [List.contains_eq_any_beq, List.contains_eq_any_beq]
  refine members.any_eq fun x _ y _ hxy => ?_
  rw [Bool.eq_iff_iff, beq_iff_eq, beq_iff_eq]
  exact h.one hab hxy

/-- A built-in type is a member on both sides or on neither. -/
theorem contains_handle_eq (h : v.Abreast v' B) {as bs : List Handle} (members : Matched B as bs)
    (k : Intrinsic) : as.contains k.handle = bs.contains k.handle := by
  rw [List.contains_eq_any_beq, List.contains_eq_any_beq]
  refine members.any_eq fun x _ y _ hxy => ?_
  rw [Bool.eq_iff_iff, beq_iff_eq, beq_iff_eq, eq_comm, h.handle_iff hxy k, eq_comm]

/-- Pairs that are decided at once are decided alike. -/
theorem atOnce?_eq (h : v.Abreast v' B) (hac : B a c) (hbd : B b d) :
    v.store.atOnce? v.flags a b = v'.store.atOnce? v'.flags c d := by
  -- leaves mirror each other by kind, and fit the same built-in types
  have leaf : v.store.leafPair? a b = v'.store.leafPair? c d := by
    obtain ⟨n, m, hn, hm, mirrors⟩ := h.nodes hac
    obtain ⟨n', m', hn', hm', mirrors'⟩ := h.nodes hbd
    unfold Store.leafPair?
    rw [hn, hm, hn', hm']
    show n.leafPair? n' = m.leafPair? m'
    cases mirrors with
    | intrinsic => cases mirrors' <;> rfl
    | literal value => cases mirrors' with
      | intrinsic k => exact congrArg some (value.fits k)
      | _ => rfl
    | _ => rfl
  unfold Store.atOnce?
  rw [leaf]
  simp only [show b = .unknown ↔ d = .unknown from h.handle_iff hbd .unknown,
    show a = .never ↔ c = .never from h.handle_iff hac .never,
    show b = .any ↔ d = .any from h.handle_iff hbd .any,
    show a = .any ↔ c = .any from h.handle_iff hac .any, h.one hac hbd, h.flags]

/-- Mirrored types have the same truth values. -/
theorem hasBoolean_eq (h : v.Abreast v' B) (value : Bool) (hab : B a b) :
    v.store.hasBoolean value a = v'.store.hasBoolean value b := by
  obtain ⟨n, m, hn, hm, mirrors⟩ := h.nodes hab
  unfold Store.hasBoolean
  rw [hn, hm]
  cases mirrors with
  | literal l => cases l <;> rfl
  | enumeration hl hk members =>
    refine (Store.matched_list hl hk (.of_forall₂ members)).any_eq fun x _ y _ hxy => ?_
    obtain ⟨n, m, hn, hm, mirrors⟩ := h.nodes hxy
    rw [hn, hm]
    cases mirrors with
    | literal l => cases l <;> rfl
    | _ => rfl
  | _ => rfl

end View.Abreast

namespace Query

/-! ## §2. Parts -/

/-- A key of a finite key type and one of another store, both of them names. -/
inductive KeysMirror (σ : Store ρ) (τ : Store ρ') (B : Handle → Handle → Prop) :
    Key × Handle → Key × Handle → Prop
  | name {a b : Atom} {x y : Handle} (h : σ.Twins τ a b) (hxy : B x y) :
    KeysMirror σ τ B (.name a, x) (.name b, y)

section

variable {v : View ρ} {v' : View ρ'} {B : Handle → Handle → Prop} {f f' : Handle → Handle → Bool}
  {a b c d : Handle}

/-- Mirrored sequences pair mirrored parts. -/
theorem matched_pairs {s t s' t' : Sequence} (hs : s.Alike B s') (ht : t.Alike B t') :
    Matched (fun p q => B p.1 q.1 ∧ B p.2 q.2) (s.pairs t) (s'.pairs t') := by
  have zip : ∀ {as bs cs ds : List Handle}, List.Forall₂ B as bs → List.Forall₂ B cs ds →
      List.Forall₂ (fun p q => B p.1 q.1 ∧ B p.2 q.2) (as.zip cs) (bs.zip ds) := by
    intro as bs cs ds h h'
    induction h generalizing cs ds with
    | nil => exact .nil
    | cons hab _ ih => cases h' with
      | nil => exact .nil
      | cons hcd rest => exact .cons ⟨hab, hcd⟩ (ih rest)
  unfold Sequence.pairs
  refine (Matched.of_forall₂ (zip hs.items ht.items)).append ?_
  -- behind the elements of the target there are the rest of the elements and the rests
  have further : Matched B (s.items.drop t.items.length ++ s.rest.toList)
      (s'.items.drop t'.items.length ++ s'.rest.toList) := by
    rw [← ht.items.length_eq]
    exact (Matched.of_forall₂ (List.forall₂_drop _ hs.items)).append (.toList hs.rest)
  obtain ⟨_, rest⟩ := t
  obtain ⟨_, rest'⟩ := t'
  have rests : Option.Rel B rest rest' := ht.rest
  cases rests with
  | none => exact .nil
  | some h => exact further.map fun _ _ _ _ hab => ⟨hab, h⟩

/-- Mirrored sequences have the same arities. -/
theorem arityFits_eq {s t s' t' : Sequence} (hs : s.Alike B s') (ht : t.Alike B t')
    (flags : Flags) (arity : Arity) : s.arityFits flags arity t = s'.arityFits flags arity t' := by
  have present := isSome_eq_of_rel hs.rest
  have absent : t.rest.isNone = t'.rest.isNone := by
    rw [← Option.not_isSome, ← Option.not_isSome, isSome_eq_of_rel ht.rest]
  unfold Sequence.arityFits
  rw [hs.items.length_eq, ht.items.length_eq, present, absent]

section

variable (answers : ∀ a b c d, B a c → B b d → f a b = f' c d)
include answers

/-- A variance asks the same of mirrored pairs. -/
theorem concur_relate (variance : Variance) (hac : B a c) (hbd : B b d) :
    Concur v v' f f' (relate variance a b) (relate variance c d) := by
  have forth : Concur v v' f f' (related a b) (related c d) := .related (answers _ _ _ _ hac hbd)
  have back : Concur v v' f f' (related b a) (related d c) := .related (answers _ _ _ _ hbd hac)
  cases variance with
  | covariant => exact forth
  | contravariant => exact back
  | invariant => exact .andThen forth back

/-- The rule of sequences agrees on mirrored ones. -/
theorem concur_sequence {s t s' t' : Sequence} (hs : s.Alike B s') (ht : t.Alike B t')
    (flags : Flags) (arity : Arity) :
    Concur v v' f f' (sequence flags arity s t) (sequence flags arity s' t') := by
  unfold sequence
  rw [arityFits_eq hs ht]
  split
  · exact .every (matched_pairs hs ht) fun _ _ _ _ h => .related (answers _ _ _ _ h.1 h.2)
  · exact rfl

/-- And so it does under a variance. -/
theorem concur_sequences {s t s' t' : Sequence} (hs : s.Alike B s') (ht : t.Alike B t')
    (flags : Flags) (variance : Variance) (arity : Arity) :
    Concur v v' f f' (sequences flags variance arity s t)
      (sequences flags variance arity s' t') := by
  have forth : Concur v v' f f' (sequence flags arity s t) (sequence flags arity s' t') :=
    concur_sequence answers hs ht flags arity
  have back : Concur v v' f f' (sequence flags arity t s) (sequence flags arity t' s') :=
    concur_sequence answers ht hs flags arity
  cases variance with
  | covariant => exact forth
  | contravariant => exact back
  | invariant => exact .andThen forth back

/-- The rule from tuples to arrays agrees. -/
theorem concur_tupleToArray {s s' : Sequence} (hs : s.Alike B s') (hbd : B b d)
    (variance : Variance) :
    Concur v v' f f' (tupleToArray variance s b) (tupleToArray variance s' d) :=
  .every hs.parts fun _ _ _ _ hac => concur_relate answers variance hac hbd

/-- The rule from arrays to tuples agrees. -/
theorem concur_arrayToTuple {t t' : Sequence} (hac : B a c) (ht : t.Alike B t')
    (variance : Variance) :
    Concur v v' f f' (arrayToTuple variance a t) (arrayToTuple variance c t') := by
  obtain ⟨items, rest⟩ := t
  obtain ⟨items', rest'⟩ := t'
  have items : List.Forall₂ B items items' := ht.items
  have rest : Option.Rel B rest rest' := ht.rest
  cases items with
  | nil => cases rest with
    | none => exact rfl
    | some h => exact concur_relate answers variance hac h
  | cons => exact rfl

/-- The rule of functions agrees. -/
theorem concur_functions {s t s' t' : Signature} (hs : s.Alike B s') (ht : t.Alike B t')
    (flags : Flags) (rule : Rule) :
    Concur v v' f f' (functions flags rule s t) (functions flags rule s' t') :=
  .andThen (concur_sequences answers hs.parameters ht.parameters flags _ _)
    (concur_relate answers _ hs.result ht.result)

end

/-! ## §3. Key types -/

section

variable (h : v.Abreast v' B)
include h

/-- Mirrored key types admit names of one text together, at every level. -/
theorem parallel_admitsWithin {n m : Atom} (names : v.store.Twins v'.store n m) (levels : Nat) :
    ∀ {a b}, B a b →
      Parallel v v' f f' Eq (admitsWithin levels a n) (admitsWithin levels b m) := by
  -- on the levels; below a key type the two stores name mirrored key types
  induction levels with
  | zero => exact fun _ => rfl
  | succ levels ih =>
    intro a b hab
    obtain ⟨x, y, hx, hy, mirrors⟩ := h.nodes hab
    -- a number is named by its canonical text, which both stores spell
    have number : ∀ x y : Binary64, x.canonical = y.canonical →
        v.store.isNameOf x n = v'.store.isNameOf y m := by
      intro x y same
      unfold Store.isNameOf Store.numberOf?
      rw [names.text, same]
    unfold admitsWithin
    refine .read ?_
    rw [hx, hy]
    cases mirrors with
    | intrinsic k =>
      cases k with
      | number =>
        show (v.store.numberOf? n).isSome = (v'.store.numberOf? m).isSome
        unfold Store.numberOf?
        rw [names.text]
      | _ => exact rfl
    | literal l => cases l with
      | string h' =>
        show (_ == n) = (_ == m)
        rw [Bool.eq_iff_iff, beq_iff_eq, beq_iff_eq]
        exact h'.eq_iff h.once h.once' names
      | number same => exact number _ _ same
      | _ => exact rfl
    | enumeration hl hk each =>
      exact .anyM (Store.matched_list hl hk (.of_forall₂ each)) fun _ _ _ _ hxy => ih hxy
    | union hl hk each =>
      exact .anyM (Store.matched_list hl hk each.members) fun _ _ _ _ hxy => ih hxy
    | intersection hl hk each =>
      exact .allM (Store.matched_list hl hk each.members) fun _ _ _ _ hxy => ih hxy
    | branded hxy => exact ih hxy
    | _ => exact rfl

/-- And so they do within the levels of the rules. -/
theorem parallel_admits {n m : Atom} (names : v.store.Twins v'.store n m) (hab : B a b) :
    Parallel v v' f f' Eq (admits a n) (admits b m) :=
  parallel_admitsWithin h names Key.nesting hab

/-- Mirrored key types without numbers list mirrored keys, at every level. -/
theorem parallel_keysWithin? (levels : Nat) : ∀ {a b}, B a b → ¬ v.store.ListsNumber a →
    Parallel v v' f f' (Option.Rel (Matched (KeysMirror v.store v'.store B)))
      (keysWithin? levels a) (keysWithin? levels b) := by
  induction levels with
  | zero => exact fun _ _ => .none
  | succ levels ih =>
    intro a b hab named
    obtain ⟨x, y, hx, hy, mirrors⟩ := h.nodes hab
    -- a member that lists a number would make the whole list one
    have members : ∀ {ms ms'}, v.store.alternatives? x = some ms → Matched B ms ms' →
        Parallel v v' f f' (Option.Rel (Matched (KeysMirror v.store v'.store B)))
          (collect (keysWithin? levels) ms) (collect (keysWithin? levels) ms') :=
      fun ha matched => .collect matched fun m hm _ _ hxy =>
        ih hxy fun lists => named (.member hx (Node.isJoint_of_alternatives? ha)
          (Store.mem_components_of_alternatives? ha hm) lists)
    unfold keysWithin?
    refine .read ?_
    rw [hx, hy]
    cases mirrors with
    | intrinsic k =>
      cases k with
      | never => exact .some .nil
      | _ => exact .none
    | literal l => cases l with
      | string h' => exact .some (.cons (.name h' hab) .nil)
      | number => exact absurd (.literal hx) named
      | _ => exact .none
    | enumeration hl hk each => exact members rfl (Store.matched_list hl hk (.of_forall₂ each))
    | union hl hk each => exact members rfl (Store.matched_list hl hk each.members)
    | _ => exact .none

/-- Key types that list no number have the same keys. -/
theorem parallel_keys? (hab : B a b) (named : ¬ v.store.ListsNumber a) :
    Parallel v v' f f' (Option.Rel (Matched (KeysMirror v.store v'.store B)))
      (keys? a) (keys? b) :=
  parallel_keysWithin? h Key.nesting hab named

/-- Mirrored key types are of one sort, at every level. -/
theorem parallel_sortWithin? (levels : Nat) : ∀ {a b}, B a b →
    Parallel v v' f f' Eq (sortWithin? levels a) (sortWithin? levels b) := by
  induction levels with
  | zero => exact fun _ => rfl
  | succ levels ih =>
    intro a b hab
    obtain ⟨x, y, hx, hy, mirrors⟩ := h.nodes hab
    unfold sortWithin?
    refine .read ?_
    rw [hx, hy]
    cases mirrors with
    | literal l => cases l <;> exact rfl
    | enumeration hl hk each =>
      exact .joinSorts (Store.matched_list hl hk (.of_forall₂ each)) (fun _ _ _ _ h => ih h) _
    | union hl hk each =>
      exact .joinSorts (Store.matched_list hl hk each.members) (fun _ _ _ _ h => ih h) _
    | branded hxy => exact ih hxy
    | _ => exact rfl

/-- And so they are within the levels of the rules. -/
theorem parallel_sort? (hab : B a b) : Parallel v v' f f' Eq (sort? a) (sort? b) :=
  parallel_sortWithin? h Key.nesting hab

end

/-! ## §4. Objects and records -/

variable (answers : ∀ a b c d, B a c → B b d → f a b = f' c d)

/-- Mirrored key types overlap together. -/
theorem parallel_overlap (answers : ∀ a b c d, B a c → B b d → f a b = f' c d) (hac : B a c)
    (hbd : B b d) : Parallel v v' f f' Eq (overlap a b) (overlap c d) := by
  unfold Parallel overlap
  simp only [eval, Answer.isTrue_ofBool, answers _ _ _ _ hac hbd]
  split
  · rfl
  · show (Answer.ofBool (f b a)).isTrue = (Answer.ofBool (f' d c)).isTrue
    rw [answers _ _ _ _ hbd hac]

section

variable (h : v.Abreast v' B)
include h answers

/-- The rule of a field agrees. -/
theorem concur_field {s s' : Layout} {g g' : Field} (hs : s.Mirrors v.store v'.store B s')
    (hg : g.Mirrors v.store v'.store B g') :
    Concur v v' f f' (field s g) (field s' g') := by
  have found := hs.field? h.once h.once' hg.name
  unfold field
  rw [hg.optional]
  generalize s.field? g.name = x at found ⊢
  generalize s'.field? g'.name = y at found ⊢
  -- declared on both sides or on neither, since names of one text are twins
  cases found with
  | some both =>
    dsimp only
    rw [both.isAlwaysPresent]
    split
    · exact rfl
    · exact .related (answers _ _ _ _ both.type hg.type)
  | none =>
    dsimp only
    split
    · exact rfl
    · have index := hs.index
      generalize s.index = i at index ⊢
      generalize s'.index = j at index ⊢
      cases index with
      | none => exact rfl
      | some index =>
        refine (parallel_admits h hg.name index.key).concur fun x _ same => ?_
        subst same
        cases x with
        | true => exact .related (answers _ _ _ _ index.value hg.type)
        | false => exact rfl

/-- The rule of a source field under an index signature agrees. -/
theorem concur_fieldUnder {i j : IndexSignature} {g g' : Field} (index : i.Mirrors B j)
    (hg : g.Mirrors v.store v'.store B g') :
    Concur v v' f f' (fieldUnder i g) (fieldUnder j g') := by
  refine (parallel_admits h hg.name index.key).concur fun x _ same => ?_
  subst same
  cases x with
  | true => exact .related (answers _ _ _ _ hg.type index.value)
  | false => exact rfl

omit h in
/-- The rule of two index signatures agrees. -/
theorem concur_indexUnder {i j : IndexSignature} {s t : Option IndexSignature}
    (index : i.Mirrors B j) (hst : Option.Rel (IndexSignature.Mirrors B) s t) :
    Concur v v' f f' (indexUnder i s) (indexUnder j t) := by
  cases hst with
  | none => exact rfl
  | some source =>
    refine (parallel_overlap answers source.key index.key).concur fun x _ same => ?_
    subst same
    cases x with
    | true => exact .related (answers _ _ _ _ source.value index.value)
    | false => exact rfl

/-- The rule of an object under an index signature agrees. -/
theorem concur_objectUnder {i j : IndexSignature} {s s' : Layout} (index : i.Mirrors B j)
    (hs : s.Mirrors v.store v'.store B s') :
    Concur v v' f f' (objectUnder i s) (objectUnder j s') :=
  .andThen (.every hs.fields fun _ _ _ _ hg => concur_fieldUnder answers h index hg)
    (concur_indexUnder answers index hs.index)

/-- The rule of objects agrees. -/
theorem concur_objects {s t s' t' : Layout} (hs : s.Mirrors v.store v'.store B s')
    (ht : t.Mirrors v.store v'.store B t') :
    Concur v v' f f' (objects s t) (objects s' t') := by
  refine .andThen (.every ht.fields fun _ _ _ _ hg => concur_field answers h hs hg) ?_
  have index := ht.index
  generalize t.index = i at index ⊢
  generalize t'.index = j at index ⊢
  cases index with
  | none => exact rfl
  | some index => exact concur_objectUnder answers h index hs

/-- The rule from objects to records agrees where the key lists no number. -/
theorem concur_objectToRecord {s s' : Layout} (hs : s.Mirrors v.store v'.store B s')
    (hk : B a c) (named : ¬ v.store.ListsNumber a) (hv : B b d) :
    Concur v v' f f' (objectToRecord s a b) (objectToRecord s' c d) := by
  refine (parallel_keys? h hk named).concur fun keys keys' same => .read ?_
  -- without numbers among them, a key is a name, and names are found alike
  have present : ((keys.getD []).all fun k => hasKey v.store s k.1)
      = (keys'.getD []).all fun k => hasKey v'.store s' k.1 := by
    refine (matched_getD_of_rel same).all_eq fun _ _ _ _ key => ?_
    cases key with
    | name names =>
      have found := hs.field? h.once h.once' names
      unfold hasKey Key.field?
      dsimp only
      generalize s.field? _ = x at found ⊢
      generalize s'.field? _ = y at found ⊢
      cases found with
      | none => rfl
      | some both => exact both.isAlwaysPresent
  rw [present]
  split
  · exact concur_objectUnder answers h ⟨hk, hv⟩ hs
  · exact rfl

omit answers in
/-- Mirrored records carry names of one text together. -/
theorem parallel_carries {keys keys' : Option (List (Key × Handle))} {n m : Atom} (hk : B a c)
    (same : Option.Rel (Matched (KeysMirror v.store v'.store B)) keys keys')
    (names : v.store.Twins v'.store n m) :
    Parallel v v' f f' Eq (carries a keys n) (carries c keys' m) := by
  cases same with
  | none => exact parallel_admits h names hk
  | some same =>
    refine .read ?_
    refine same.any_eq fun _ _ _ _ key => ?_
    cases key with
    | name twins =>
      show (_ == n) = (_ == m)
      rw [Bool.eq_iff_iff, beq_iff_eq, beq_iff_eq]
      exact twins.eq_iff h.once h.once' names

/-- The rule from records to objects agrees where the key lists no number. -/
theorem concur_recordToObject {t t' : Layout} (hk : B a c) (named : ¬ v.store.ListsNumber a)
    (hv : B b d) (ht : t.Mirrors v.store v'.store B t') :
    Concur v v' f f' (recordToObject a b t) (recordToObject c d t') := by
  refine (parallel_keys? h hk named).concur fun keys keys' same => ?_
  refine .andThen (.every ht.fields fun g _ g' _ hg => ?_) ?_
  · refine (parallel_carries h hk same hg.name).concur fun x _ carried => ?_
    subst carried
    rw [isSome_eq_of_rel same, hg.optional]
    split
    · exact rfl
    · split
      · exact .related (answers _ _ _ _ hv hg.type)
      · exact rfl
  · have index := ht.index
    generalize t.index = i at index ⊢
    generalize t'.index = j at index ⊢
    cases index with
    | none => exact rfl
    | some index => exact concur_indexUnder answers index (.some ⟨hk, hv⟩)

/-- The rule of records agrees where the target key lists no number. -/
theorem concur_records {k l x y k' l' x' y' : Handle} (hk : B k k') (hx : B x x') (hl : B l l')
    (named : ¬ v.store.ListsNumber l) (hy : B y y') (variance : Variance) :
    Concur v v' f f' (records variance k x l y) (records variance k' x' l' y') := by
  refine (parallel_sort? h hk).concur fun s _ same => ?_
  subst same
  refine (parallel_sort? h hl).concur fun t _ same => ?_
  subst same
  cases s with
  | none => exact rfl
  | some s => cases t with
    | none => exact rfl
    | some t =>
      dsimp only
      split
      · refine (parallel_keys? h hl named).concur fun keys keys' same => ?_
        refine .andThen (.every (matched_getD_of_rel same) fun _ _ _ _ key => ?_) ?_
        · cases key with
          | name _ hxy => exact .related (answers _ _ _ _ hxy hk)
        · exact concur_relate answers variance hx hy
      · exact rfl

/-! ## §5. Unions and intersections -/

/-- The rule of union targets agrees. -/
theorem concur_unionTarget {as bs : List Handle} (hac : B a c) (members : Matched B as bs) :
    Concur v v' f f' (unionTarget a as) (unionTarget c bs) := by
  -- the three questions of the rule, each answered alike on both sides
  have member : isMember v.store a as = isMember v'.store c bs := by
    obtain ⟨n, m, hn, hm, mirrors⟩ := h.nodes hac
    unfold isMember
    rw [h.contains_eq members hac, hn, hm]
    cases mirrors with
    | @literal l k value =>
      show (_ || (as.contains l.primitive.handle || (l.isNaN && as.contains Intrinsic.nan.handle)))
        = (_ || (bs.contains k.primitive.handle || (k.isNaN && bs.contains Intrinsic.nan.handle)))
      rw [value.primitive, value.isNaN, h.contains_handle_eq members, h.contains_handle_eq members]
    | _ => rfl
  have booleans : haveBooleans v.store as = haveBooleans v'.store bs := by
    unfold haveBooleans
    rw [members.any_eq fun _ _ _ _ hxy => h.hasBoolean_eq true hxy,
      members.any_eq fun _ _ _ _ hxy => h.hasBoolean_eq false hxy]
  have boolean : (a == Handle.boolean) = (c == Handle.boolean) := by
    rw [Bool.eq_iff_iff, beq_iff_eq, beq_iff_eq]
    exact h.handle_iff hac .boolean
  unfold Concur
  rw [isTrue_eval_unionTarget, isTrue_eval_unionTarget, member, booleans, boolean,
    members.any_eq fun _ _ _ _ hxy => answers _ _ _ _ hac hxy]

omit answers in
/-- Mirrored members are mirrored layouts, or some member is none on both sides. -/
theorem parallel_layouts {as bs : List Handle} (members : Matched B as bs) :
    Parallel v v' f f' (Option.Rel (Matched (Layout.Mirrors v.store v'.store B))) (layouts as)
      (layouts bs) := by
  have layout : ∀ a ∈ as, ∀ b ∈ bs, B a b →
      Option.Rel (Layout.Mirrors v.store v'.store B) (v.layout? a) (v'.layout? b) := by
    intro a _ b _ hab
    obtain ⟨n, m, hn, hm, mirrors⟩ := h.nodes hab
    obtain ⟨stands, stands'⟩ := h.stands hab
    unfold View.layout?
    rw [stands, stands', hn, hm]
    cases mirrors with
    | object ho hp hs =>
      rw [← Store.object_of_get? ho, ← Store.object_of_get? hp] at hs
      exact .some hs
    | _ => exact .none
  unfold Parallel
  rw [eval_layouts_eq, eval_layouts_eq,
    members.all_eq fun a ha b hb hab => isSome_eq_of_rel (layout a ha b hb hab)]
  split
  · exact .some (members.filterMap layout)
  · exact .none

/-- The rule of a merged field agrees. -/
theorem concur_mergedField {ss ts : List Layout} {g g' : Field}
    (sources : Matched (Layout.Mirrors v.store v'.store B) ss ts)
    (hg : g.Mirrors v.store v'.store B g') :
    Concur v v' f f' (mergedField ss g) (mergedField ts g') := by
  have found : Matched (Field.Mirrors v.store v'.store B) (ss.filterMap (·.field? g.name))
      (ts.filterMap (·.field? g'.name)) :=
    sources.filterMap fun _ _ _ _ hst => hst.field? h.once h.once' hg.name
  have present : (ss.filterMap (·.field? g.name)).any Field.isAlwaysPresent
      = (ts.filterMap (·.field? g'.name)).any Field.isAlwaysPresent :=
    found.any_eq fun _ _ _ _ both => both.isAlwaysPresent
  unfold mergedField
  dsimp only
  rw [found.isEmpty_eq, present, hg.optional]
  split
  · exact rfl
  · split
    · exact rfl
    · exact .any found fun _ _ _ _ both => .related (answers _ _ _ _ both.type hg.type)

/-- The rule of merged objects agrees. -/
theorem concur_merged {ss ts : List Layout} {t t' : Layout}
    (sources : Matched (Layout.Mirrors v.store v'.store B) ss ts)
    (ht : t.Mirrors v.store v'.store B t') :
    Concur v v' f f' (merged ss t) (merged ts t') := by
  refine .andThen (.every ht.fields fun _ _ _ _ hg => concur_mergedField answers h sources hg) ?_
  have index := ht.index
  generalize t.index = i at index ⊢
  generalize t'.index = j at index ⊢
  cases index with
  | none => exact rfl
  | some index => exact .every sources fun _ _ _ _ hst => concur_objectUnder answers h index hst

/-- The rule of intersection sources agrees. -/
theorem concur_intersectionSource {as bs : List Handle} {n m : Node} (members : Matched B as bs)
    (hbd : B b d) (target : n.Mirrors v.store v'.store B m) :
    Concur v v' f f' (intersectionSource as b n) (intersectionSource bs d m) := by
  have whole : Concur v v' f f' (asOneObject as n) (asOneObject bs m) := by
    cases target with
    | object ho hp ht =>
      refine (parallel_layouts h members).concur fun _ _ shapes => ?_
      cases shapes with
      | none => exact rfl
      | some shapes =>
        refine .read ?_
        rw [Store.object_of_get? ho, Store.object_of_get? hp]
        exact concur_merged answers h shapes ht
    | _ => exact rfl
  unfold Concur
  rw [isTrue_eval_intersectionSource, isTrue_eval_intersectionSource, whole,
    members.any_eq fun _ _ _ _ hxy => answers _ _ _ _ hxy hbd]

/-- The rule from intersections to unions agrees. -/
theorem concur_intersectionToUnion {l k : ListId} {as bs ms ms' : List Handle} {n m : Node}
    (hac : B a c) (hbd : B b d) (hl : v.store.lists.get? l.number = some as)
    (hk : v'.store.lists.get? k.number = some bs) (source : Matched B as bs)
    (target : n.Mirrors v.store v'.store B m) (members : Matched B ms ms') :
    Concur v v' f f' (intersectionToUnion a l b n ms) (intersectionToUnion c k d m ms') := by
  have into := concur_unionTarget answers h hac members
  have alone := concur_intersectionSource answers h source hbd target
  unfold Concur at *
  rw [isTrue_eval_intersectionToUnion, isTrue_eval_intersectionToUnion, into,
    Store.list_of_get? hl, Store.list_of_get? hk, alone]

/-! ## §6. One step -/

/-- Every rule of the table agrees on mirrored nodes. -/
theorem concur_byRule {n m n' m' : Node} (source : n.Mirrors v.store v'.store B m)
    (target : n'.Mirrors v.store v'.store B m')
    (hn : v.store.node? a = some n) (hn' : v.store.node? b = some n') (hac : B a c)
    (hbd : B b d) (flags : Flags) (rule : Rule) :
    Concur v v' f f' (byRule flags rule n n') (byRule flags rule m m') := by
  -- the shapes are looked up by number, and their numbers may differ
  have tuple : ∀ {o p : TupleId} {s t}, v.store.tuples.get? o.number = some s →
      v'.store.tuples.get? p.number = some t → s.Alike B t →
      (v.store.tuple o).Alike B (v'.store.tuple p) := by
    intro o p s t ho hp alike
    rw [Store.tuple_of_get? ho, Store.tuple_of_get? hp]
    exact alike
  have object : ∀ {o p : ObjectId} {s t}, v.store.objects.get? o.number = some s →
      v'.store.objects.get? p.number = some t → s.Mirrors v.store v'.store B t →
      (v.store.object o).Mirrors v.store v'.store B (v'.store.object p) := by
    intro o p s t ho hp mirrors
    rw [Store.object_of_get? ho, Store.object_of_get? hp]
    exact mirrors
  have one : ∀ {a b c d variance}, B a c → B b d →
      Concur v v' f f' (relate variance a b) (relate variance c d) := fun hac hbd =>
    concur_relate answers _ hac hbd
  refine .read ?_
  -- one case for each pair of kinds that has a rule; any other pair fails on both sides
  cases source with
  | literal value => cases target with
    | intrinsic k =>
      show (Answer.ofBool _).isTrue = (Answer.ofBool _).isTrue
      rw [value.fits]
    | _ => exact rfl
  | array hs => cases target with
    | array ht => exact one hs ht
    | tuple ho hp ht => exact concur_arrayToTuple answers hs (tuple ho hp ht) _
    | _ => exact rfl
  | tuple ho hp hs => cases target with
    | array ht => exact concur_tupleToArray answers (tuple ho hp hs) ht _
    | tuple ho' hp' ht =>
      exact concur_sequences answers (tuple ho hp hs) (tuple ho' hp' ht) flags _ _
    | _ => exact rfl
  | object ho hp hs => cases target with
    | object ho' hp' ht => exact concur_objects answers h (object ho hp hs) (object ho' hp' ht)
    | record hk hx =>
      exact concur_objectToRecord answers h (object ho hp hs) hk (h.named hbd hn') hx
    | _ => exact rfl
  | record hk hx => cases target with
    | object ho hp ht =>
      exact concur_recordToObject answers h hk (h.named hac hn) hx (object ho hp ht)
    | record hl hy => exact concur_records answers h hk hx hl (h.named hbd hn') hy _
    | _ => exact rfl
  | promise hs => cases target with
    | promise ht => exact one hs ht
    | _ => exact rfl
  | set hs => cases target with
    | set ht => exact one hs ht
    | _ => exact rfl
  | map hk hx => cases target with
    | map hl hy => exact .andThen (one hk hl) (one hx hy)
    | _ => exact rfl
  | function hf hg hs => cases target with
    | function hf' hg' ht =>
      dsimp only
      rw [Store.function_of_get? hf, Store.function_of_get? hg, Store.function_of_get? hf',
        Store.function_of_get? hg']
      exact concur_functions answers hs ht flags rule
    | _ => exact rfl
  | _ => exact rfl

/-- The rule of brands agrees. -/
theorem concur_brands {n m n' m' : Node} (source : n.Mirrors v.store v'.store B m)
    (target : n'.Mirrors v.store v'.store B m') (hbd : B b d) :
    Concur v v' f f' (brands n n' b) (brands m m' d) := by
  cases source with
  | branded hs names => cases target with
    | branded ht names' =>
      have same := names.eq_iff h.once h.once' names'
      unfold brands
      simp only [same]
      split
      · exact .related (answers _ _ _ _ hs ht)
      · exact .related (answers _ _ _ _ hs hbd)
    | _ => exact .related (answers _ _ _ _ hs hbd)
  | _ => exact rfl

/-- **THE RULES DO NOT SEE NUMBERS.** -/
theorem concur_nodes {n m n' m' : Node} (source : n.Mirrors v.store v'.store B m)
    (target : n'.Mirrors v.store v'.store B m')
    (hn : v.store.node? a = some n) (hn' : v.store.node? b = some n') (hac : B a c)
    (hbd : B b d) (flags : Flags) :
    Concur v v' f f' (nodes flags a b n n') (nodes flags c d m m') := by
  have each : ∀ {ms ms'}, Matched B ms ms' →
      Concur v v' f f' (unionSource ms b) (unionSource ms' d) := fun members =>
    .every members fun _ _ _ _ hxy => .related (answers _ _ _ _ hxy hbd)
  have into : ∀ {ms ms'}, Matched B ms ms' →
      Concur v v' f f' (unionTarget a ms) (unionTarget c ms') := fun members =>
    concur_unionTarget answers h hac members
  have every : ∀ {ms ms'}, Matched B ms ms' →
      Concur v v' f f' (intersectionTarget a ms) (intersectionTarget c ms') := fun members =>
    .every members fun _ _ _ _ hxy => .related (answers _ _ _ _ hac hxy)
  have alone : ∀ {ms ms'}, Matched B ms ms' →
      Concur v v' f f' (intersectionSource ms b n') (intersectionSource ms' d m') := fun members =>
    concur_intersectionSource answers h members hbd target
  have brand := concur_brands answers h source target hbd
  have rule : ∀ r, Concur v v' f f' (byRule flags r n n') (byRule flags r m m') :=
    concur_byRule answers h source target hn hn' hac hbd flags
  refine .read ?_
  -- unions first, then intersections, then brands; what is left goes by the constructors
  cases source with
  | enumeration hl hk members => exact each (Store.matched_list hl hk (.of_forall₂ members))
  | union hl hk members => exact each (Store.matched_list hl hk members.members)
  | intersection hl hk ms => cases target with
    | enumeration hl' hk' members =>
      exact concur_intersectionToUnion answers h hac hbd hl hk ms.members
        (.enumeration hl' hk' members) (Store.matched_list hl' hk' (.of_forall₂ members))
    | union hl' hk' members =>
      exact concur_intersectionToUnion answers h hac hbd hl hk ms.members
        (.union hl' hk' members) (Store.matched_list hl' hk' members.members)
    | intersection hl' hk' members => exact every (Store.matched_list hl' hk' members.members)
    | _ => exact alone (Store.matched_list hl hk ms.members)
  | branded hx names => cases target with
    | enumeration hl hk members => exact into (Store.matched_list hl hk (.of_forall₂ members))
    | union hl hk members => exact into (Store.matched_list hl hk members.members)
    | intersection hl hk members => exact every (Store.matched_list hl hk members.members)
    | _ => exact brand
  | intrinsic k => cases target with
    | enumeration hl hk members => exact into (Store.matched_list hl hk (.of_forall₂ members))
    | union hl hk members => exact into (Store.matched_list hl hk members.members)
    | intersection hl hk members => exact every (Store.matched_list hl hk members.members)
    | _ => exact rfl
  | _ => cases target with
    | enumeration hl hk members => exact into (Store.matched_list hl hk (.of_forall₂ members))
    | union hl hk members => exact into (Store.matched_list hl hk members.members)
    | intersection hl hk members => exact every (Store.matched_list hl hk members.members)
    | branded => exact rfl
    -- the two kinds are known by now, so is the rule for them, where there is one
    | _ => first | exact rfl | exact rule _

end

end

end Query

/-! ## §7. The comparison as a whole -/

namespace View.Abreast

variable {v : View ρ} {v' : View ρ'} {B : Handle → Handle → Prop} {a b c d : Handle}

/-- A comparison to a number of levels comes to the same. -/
theorem fitsWithin_eq (h : v.Abreast v' B) (levels : Nat) :
    ∀ a b c d, B a c → B b d → v.fitsWithin levels a b = v'.fitsWithin levels c d := by
  induction levels with
  | zero => exact fun _ _ _ _ _ _ => rfl
  | succ levels ih =>
    intro a b c d hac hbd
    show v.justifies _ _ a b = v'.justifies _ _ c d
    unfold justifies
    rw [h.atOnce?_eq hac hbd]
    split
    · rfl
    · obtain ⟨n, m, hn, hm, source⟩ := h.nodes hac
      obtain ⟨n', m', hn', hm', target⟩ := h.nodes hbd
      rw [eval_step_of_nodes hn hn' source.isLazy target.isLazy,
        eval_step_of_nodes hm hm' source.flip.isLazy target.flip.isLazy, ← h.flags]
      exact Query.concur_nodes ih h source target hn hn' hac hbd v.flags

/-- **WHAT FITS DOES NOT DEPEND ON THE NUMBERS OF HANDLES AND NAMES.** -/
theorem fits_iff (h : v.Abreast v' B) (hac : B a c) (hbd : B b d) (la : v.store.LazyFree a)
    (lb : v.store.LazyFree b) (lc : v'.store.LazyFree c) (ld : v'.store.LazyFree d) :
    v.Fits a b ↔ v'.Fits c d := by
  obtain ⟨i, ha⟩ := isFinite_of_lazyFree la
  obtain ⟨j, hb⟩ := isFinite_of_lazyFree lb
  obtain ⟨i', hc⟩ := isFinite_of_lazyFree lc
  obtain ⟨j', hd⟩ := isFinite_of_lazyFree ld
  -- enough levels for both
  have left := fitsWithin_eq_fits ⟨i, j, rfl, ha, hb⟩ (i + j + (i' + j') + 1) (by omega)
  have right := fitsWithin_eq_fits ⟨i', j', rfl, hc, hd⟩ (i + j + (i' + j') + 1) (by omega)
  rw [← fits_eq_true, ← fits_eq_true, ← left, ← right, h.fitsWithin_eq _ a b c d hac hbd]

end View.Abreast

end Assignability
