/-
  Assignability.Proofs.Relation.Steady
  ────────────────────────────────────
  **THE RULES GO ON IN A GROWING STORE.**

  A rule reads the nodes, lists and shapes of the pair it is about, and
  what key types and members are made of.  In a whole store all that is
  there, so it reads the same in later stores.  One lemma for each rule,
  in the order of the rules themselves, and from them the statement on
  the whole step (`runs_step`).
-/
import Assignability.Proofs.Query.Steady

namespace Assignability

open Store

variable {ρ : Type} {σ τ : Store ρ}

/-! ## §1. What is read -/

namespace Store

variable {h g : Handle} {n : Node}

/-- The parts of a layout are in the store, and the names of its fields are spelled there. -/
structure HasLayout (σ : Store ρ) (s : Layout) : Prop where
  parts : ∀ g ∈ s.parts, σ.Has g
  names : ∀ f ∈ s.fields, σ.Spells f.name

/-- A layout of the store is one of every later store. -/
theorem Extends.hasLayout (later : σ.Extends τ) {s : Layout} (hs : σ.HasLayout s) :
    τ.HasLayout s :=
  ⟨fun g hg => later.has (hs.parts g hg), fun f hf => later.spells (hs.names f hf)⟩

/-- A whole store has the layouts of its objects. -/
theorem IsWhole.hasLayout (whole : σ.IsWhole) {o : ObjectId}
    (hn : σ.node? h = some (.object o)) : σ.HasLayout (σ.object o) :=
  ⟨fun _ hg => whole.has_component hn hg, whole.names h o hn⟩

/-- A name reads as the same number later. -/
theorem Grows.numberOf?_eq (later : σ.Grows τ) {name : Atom} (hname : σ.Spells name) :
    τ.numberOf? name = σ.numberOf? name :=
  congrArg Decimal.canonical? (later.text hname)

/-- A name is that of the same numbers later. -/
theorem Grows.isNameOf_eq (later : σ.Grows τ) {name : Atom} (hname : σ.Spells name)
    (x : Binary64) : τ.isNameOf x name = σ.isNameOf x name := by
  unfold isNameOf
  rw [later.numberOf?_eq hname]

/-- A node has the same alternatives later. -/
theorem Extends.alternatives?_eq (later : σ.Extends τ) (hn : σ.keeps n = true) :
    τ.alternatives? n = σ.alternatives? n := by
  cases n with
  | union l | enumeration l => exact congrArg some (later.list hn)
  | _ => rfl

/-- A property of the elements of a list is tested the same way where it is the same. -/
theorem any_eq_of_mem {α : Type} {p q : α → Bool} {xs : List α} (h : ∀ x ∈ xs, p x = q x) :
    xs.any p = xs.any q := by
  induction xs with
  | nil => rfl
  | cons x xs ih =>
    rw [List.any_cons, List.any_cons, h x List.mem_cons_self,
      ih fun y hy => h y (List.mem_cons_of_mem x hy)]

/-- A type has the same truth values later. -/
theorem Extends.hasBoolean_eq (later : σ.Extends τ) (whole : σ.IsWhole) (hh : σ.Has h) (b : Bool) :
    τ.hasBoolean b h = σ.hasBoolean b h := by
  obtain ⟨n, hn⟩ := hh
  unfold hasBoolean
  rw [hn, later.node? hn]
  cases n with
  | enumeration l =>
    dsimp only
    rw [later.list (whole.keeps h _ hn)]
    refine any_eq_of_mem fun m hm => ?_
    rw [later.node?_eq (whole.has_component hn hm)]
  | literal value => cases value <;> rfl
  | _ => rfl

end Store

/-- A key is named as before when the store grows. -/
theorem Key.isNamed_eq (later : σ.Grows τ) {name : Atom} (hname : σ.Spells name) (k : Key) :
    k.isNamed τ name = k.isNamed σ name := by
  cases k with
  | name text => rfl
  | number x => exact later.isNameOf_eq hname x

namespace Query

/-! ## §2. Parts by position -/

section

variable {s t : Handle} {x : Variance} {flags : Flags} {arity : Arity} {rule : Rule}
  (whole : σ.IsWhole)
include whole

/-- A variance runs on a pair of the store. -/
theorem runs_relate (hs : σ.Has s) (ht : σ.Has t) : (relate x s t : Query ρ Answer).Runs σ := by
  cases x with
  | covariant => exact runs_related hs ht
  | contravariant => exact runs_related ht hs
  | invariant => exact (runs_related hs ht).andThen whole (runs_related ht hs)

/-- The rule of sequences runs on parts of the store. -/
theorem runs_sequence {s t : Sequence} (hs : ∀ g ∈ s.parts, σ.Has g) (ht : ∀ g ∈ t.parts, σ.Has g) :
    (sequence flags arity s t : Query ρ Answer).Runs σ := by
  unfold sequence
  split
  · refine .every whole fun p hp => ?_
    obtain ⟨h, h'⟩ := mem_parts_of_mem_pairs hp
    exact runs_related (hs _ h) (ht _ h')
  · exact .done trivial

theorem runs_sequences {s t : Sequence} (hs : ∀ g ∈ s.parts, σ.Has g)
    (ht : ∀ g ∈ t.parts, σ.Has g) : (sequences flags x arity s t : Query ρ Answer).Runs σ := by
  cases x with
  | covariant => exact runs_sequence whole hs ht
  | contravariant => exact runs_sequence whole ht hs
  | invariant => exact (runs_sequence whole hs ht).andThen whole (runs_sequence whole ht hs)

theorem runs_tupleToArray {s : Sequence} (hs : ∀ g ∈ s.parts, σ.Has g) (ht : σ.Has t) :
    (tupleToArray x s t : Query ρ Answer).Runs σ :=
  .every whole fun a ha => runs_relate whole (hs a ha) ht

theorem runs_arrayToTuple {t : Sequence} (hs : σ.Has s) (ht : ∀ g ∈ t.parts, σ.Has g) :
    (arrayToTuple x s t : Query ρ Answer).Runs σ := by
  unfold arrayToTuple
  split
  · next rest _ hr =>
    exact runs_relate whole hs (ht rest (List.mem_append_right _ (by rw [hr]; simp)))
  · exact .done trivial

/-- The rule of functions runs on parts of the store. -/
theorem runs_functions {s t : Signature} (hs : ∀ g ∈ s.parts, σ.Has g)
    (ht : ∀ g ∈ t.parts, σ.Has g) : (functions flags rule s t : Query ρ Answer).Runs σ := by
  refine Runs.andThen whole (runs_sequences whole (fun g hg => ?_) fun g hg => ?_)
    (runs_relate whole ?_ ?_)
  · exact hs g (List.mem_cons_of_mem _ hg)
  · exact ht g (List.mem_cons_of_mem _ hg)
  · exact hs _ List.mem_cons_self
  · exact ht _ List.mem_cons_self

end

/-! ## §3. Key types -/

/-- To ask whether a name is admitted runs, at every level. -/
theorem runs_admitsWithin {name : Atom} (levels : Nat) : ∀ {σ : Store ρ} {key : Handle},
    σ.IsWhole → σ.Has key → σ.Spells name → (admitsWithin levels key name).Runs σ := by
  -- on the levels: what is looked at stays as it is, and what is resolved is in the store
  induction levels with
  | zero => exact fun _ _ _ => .done trivial
  | succ levels ih =>
    intro σ key whole hkey hname
    have inner : ∀ {n}, σ.node? key = some n → ∀ g ∈ σ.components n,
        (admitsWithin levels g name).Runs σ :=
      fun hn g hg => ih whole (whole.has_component hn hg) hname
    refine .look (fun τ later => ?_) ?_
    · obtain ⟨n, hn⟩ := hkey
      have keeps := whole.keeps key n hn
      dsimp only [Query.bind]
      rw [later.node? hn, hn, later.numberOf?_eq hname]
      cases n with
      | enumeration l | union l | intersection l => dsimp only; rw [later.list keeps]
      | intrinsic k => cases k <;> rfl
      | literal value =>
        cases value with
        | number x => exact congrArg Query.done (later.isNameOf_eq hname x)
        | _ => rfl
      | _ => rfl
    · dsimp only [Query.bind]
      split
      · exact .done trivial
      · exact .done trivial
      · exact .done trivial
      · exact .done trivial
      · exact .done trivial
      · exact .done trivial
      · next hn => exact Runs.anyM whole (inner hn)
      · next hn => exact Runs.anyM whole (inner hn)
      · next hn => exact Runs.allM whole (inner hn)
      · next hn => exact inner hn _ (List.mem_singleton_self _)
      · refine Steady.bind (steady_resolved hkey) whole fun τ g later whole' hg => ?_
        exact ih whole' hg (later.spells hname)
      · exact .done trivial

theorem runs_admits {key : Handle} {name : Atom} (whole : σ.IsWhole) (hkey : σ.Has key)
    (hname : σ.Spells name) : (admits key name).Runs σ :=
  runs_admitsWithin Key.nesting whole hkey hname

/-- The literals of the keys are in the store. -/
def HasKeys (σ : Store ρ) (keys : Option (List (Key × Handle))) : Prop :=
  ∀ k ∈ keys.getD [], σ.Has k.2

/-- Keys that lie in a store lie in every later one. -/
theorem hasKeys_mono (σ τ : Store ρ) (keys : Option (List (Key × Handle))) (later : σ.Extends τ)
    (h : HasKeys σ keys) : HasKeys τ keys := fun k hk => later.has (h k hk)

/-- What is collected steadily lies in the store. -/
theorem steady_collect {q : Handle → Query ρ (Option (List (Key × Handle)))} (whole : σ.IsWhole) :
    ∀ {xs : List Handle}, (∀ x ∈ xs, (q x).Steady HasKeys σ) →
      (collect q xs).Steady HasKeys σ := by
  intro xs
  -- on the list; each question may resolve something, so the rest is asked in a later store
  induction xs with
  | nil => intro _; exact .done fun k hk => by cases hk
  | cons x xs ih =>
    intro h
    have tail := ih fun y hy => h y (List.mem_cons_of_mem x hy)
    refine (h x List.mem_cons_self).bind whole fun τ found later whole' hf => ?_
    cases found with
    | none => exact .done fun k hk => by cases hk
    | some found =>
      refine (tail.mono hasKeys_mono later).bind whole' fun υ rest later' _ hr => .done ?_
      cases rest with
      | none => intro k hk; cases hk
      | some rest =>
        intro k hk
        rcases List.mem_append.1 hk with hk | hk
        · exact later'.has (hf k hk)
        · exact hr k hk

/-- The keys of a key type lie in the store, at every level. -/
theorem steady_keysWithin? (levels : Nat) : ∀ {σ : Store ρ} {key : Handle},
    σ.IsWhole → σ.Has key → (keysWithin? levels key).Steady HasKeys σ := by
  -- on the levels, as for the names
  induction levels with
  | zero => exact fun _ _ => .done fun k hk => by cases hk
  | succ levels ih =>
    intro σ key whole hkey
    have inner : ∀ {n}, σ.node? key = some n → ∀ g ∈ σ.components n,
        (keysWithin? levels g).Steady HasKeys σ :=
      fun hn g hg => ih whole (whole.has_component hn hg)
    have self : ∀ k : Key, HasKeys σ (some [(k, key)]) := by
      intro k p hp
      obtain rfl : p = (k, key) := List.mem_singleton.1 hp
      exact hkey
    refine .look (fun τ later => ?_) ?_
    · obtain ⟨n, hn⟩ := hkey
      have keeps := whole.keeps key n hn
      dsimp only [Query.bind]
      rw [later.node? hn, hn]
      cases n with
      | enumeration l | union l => dsimp only; rw [later.list keeps]
      | intrinsic k => cases k <;> rfl
      | literal value => cases value <;> rfl
      | _ => rfl
    · dsimp only [Query.bind]
      split
      · exact .done fun k hk => by cases hk
      · exact .done (self _)
      · exact .done (self _)
      · next hn => exact steady_collect whole (inner hn)
      · next hn => exact steady_collect whole (inner hn)
      · exact (steady_resolved hkey).bind whole fun τ g _ whole' hg => ih whole' hg
      · exact .done fun k hk => by cases hk

theorem steady_keys? {key : Handle} (whole : σ.IsWhole) (hkey : σ.Has key) :
    (keys? key).Steady HasKeys σ := steady_keysWithin? Key.nesting whole hkey

/-- To join sorts runs where the sorts do. -/
theorem runs_joinSorts {q : Handle → Query ρ (Option KeySort)} (whole : σ.IsWhole) :
    ∀ {xs : List Handle} {sort : KeySort}, (∀ x ∈ xs, (q x).Runs σ) →
      (joinSorts q sort xs).Runs σ := by
  intro xs
  induction xs with
  | nil => intro _ _; exact .done trivial
  | cons x xs ih =>
    intro sort h
    refine (h x List.mem_cons_self).bind whole fun next => ?_
    cases next with
    | none => exact .done trivial
    | some next => exact ih fun y hy => h y (List.mem_cons_of_mem x hy)

/-- To ask for the sort of a key type runs, at every level. -/
theorem runs_sortWithin? (levels : Nat) : ∀ {σ : Store ρ} {key : Handle},
    σ.IsWhole → σ.Has key → (sortWithin? levels key).Runs σ := by
  -- on the levels, as for the names
  induction levels with
  | zero => exact fun _ _ => .done trivial
  | succ levels ih =>
    intro σ key whole hkey
    have inner : ∀ {n}, σ.node? key = some n → ∀ g ∈ σ.components n,
        (sortWithin? levels g).Runs σ :=
      fun hn g hg => ih whole (whole.has_component hn hg)
    refine .look (fun τ later => ?_) ?_
    · obtain ⟨n, hn⟩ := hkey
      have keeps := whole.keeps key n hn
      dsimp only [Query.bind]
      rw [later.node? hn, hn]
      cases n with
      | enumeration l | union l => dsimp only; rw [later.list keeps]
      | _ => rfl
    · dsimp only [Query.bind]
      split
      · exact .done trivial
      · exact .done trivial
      · next hn => exact runs_joinSorts whole (inner hn)
      · next hn => exact runs_joinSorts whole (inner hn)
      · next hn => exact inner hn _ (List.mem_singleton_self _)
      · exact (steady_resolved hkey).bind whole fun τ g _ whole' hg => ih whole' hg
      · exact .done trivial

theorem runs_sort? {key : Handle} (whole : σ.IsWhole) (hkey : σ.Has key) :
    (sort? key).Runs σ := runs_sortWithin? Key.nesting whole hkey

/-- To ask for an overlap runs. -/
theorem runs_overlap {a b : Handle} (ha : σ.Has a) (hb : σ.Has b) :
    (overlap a b : Query ρ Bool).Runs σ := by
  refine .askKeys ha hb fun x => ?_
  split
  · exact .done trivial
  · exact .askKeys hb ha fun y => .done trivial

/-! ## §4. Objects and records -/

section

variable {s t : Layout} {index : IndexSignature} (whole : σ.IsWhole)
include whole

/-- The rule of a field runs. -/
theorem runs_field {f : Field} (hs : σ.HasLayout s) (hf : σ.Has f.type) (hn : σ.Spells f.name) :
    (field s f : Query ρ Answer).Runs σ := by
  unfold field
  split
  -- the source declares the field
  · next hg =>
    split
    · exact .done trivial
    · exact runs_related (hs.parts _ (mem_parts_of_field? hg)) hf
  · split
    · exact .done trivial
    · split
      · next hi =>
        refine (runs_admits whole (hs.parts _ (key_mem_parts hi)) hn).bind whole fun b => ?_
        cases b with
        | true => exact runs_related (hs.parts _ (value_mem_parts hi)) hf
        | false => exact .done trivial
      · exact .done trivial

theorem runs_fieldUnder {f : Field} (hk : σ.Has index.key) (hv : σ.Has index.value)
    (hf : σ.Has f.type) (hn : σ.Spells f.name) :
    (fieldUnder index f : Query ρ Answer).Runs σ := by
  refine (runs_admits whole hk hn).bind whole fun b => ?_
  cases b with
  | true => exact runs_related hf hv
  | false => exact .done trivial

theorem runs_indexUnder {i : Option IndexSignature} (hk : σ.Has index.key)
    (hv : σ.Has index.value) (hi : ∀ j, i = some j → σ.Has j.key ∧ σ.Has j.value) :
    (indexUnder index i : Query ρ Answer).Runs σ := by
  cases i with
  | none => exact .done trivial
  | some j =>
    obtain ⟨hk', hv'⟩ := hi j rfl
    refine (runs_overlap hk' hk).bind whole fun b => ?_
    cases b with
    | true => exact runs_related hv' hv
    | false => exact .done trivial

theorem runs_objectUnder (hk : σ.Has index.key) (hv : σ.Has index.value) (hs : σ.HasLayout s) :
    (objectUnder index s : Query ρ Answer).Runs σ := by
  refine Runs.andThen whole (.every whole fun f hf => ?_) (runs_indexUnder whole hk hv ?_)
  · exact runs_fieldUnder whole hk hv (hs.parts _ (mem_parts_of_field hf)) (hs.names f hf)
  · exact fun j hj => ⟨hs.parts _ (key_mem_parts hj), hs.parts _ (value_mem_parts hj)⟩

/-- The rule of objects runs. -/
theorem runs_objects (hs : σ.HasLayout s) (ht : σ.HasLayout t) :
    (objects s t : Query ρ Answer).Runs σ := by
  refine Runs.andThen whole (.every whole fun f hf => ?_) ?_
  · exact runs_field whole hs (ht.parts _ (mem_parts_of_field hf)) (ht.names f hf)
  · split
    · next hi =>
      exact runs_objectUnder whole (ht.parts _ (key_mem_parts hi))
        (ht.parts _ (value_mem_parts hi)) hs
    · exact .done trivial

end

/-- The field that a key names is the same later on. -/
theorem hasKey_eq (later : σ.Extends τ) {s : Layout} (hs : σ.HasLayout s) (k : Key) :
    hasKey τ s k = hasKey σ s k := by
  cases k with
  | name text => rfl
  | number x =>
    -- a number is compared with the spelling of each name, and these stay as they are
    have found : ∀ fields : List Field, (∀ f ∈ fields, σ.Spells f.name) →
        fields.find? (fun f => τ.isNameOf x f.name)
          = fields.find? fun f => σ.isNameOf x f.name := by
      intro fields
      induction fields with
      | nil => intro _; rfl
      | cons f fs ih =>
        intro h
        rw [List.find?_cons, List.find?_cons, later.isNameOf_eq (h f List.mem_cons_self),
          ih fun g hg => h g (List.mem_cons_of_mem f hg)]
    unfold hasKey Key.field?
    dsimp only
    rw [found s.fields hs.names]

section

variable {s t : Layout} {key value : Handle} (whole : σ.IsWhole)
include whole

/-- The rule from objects to records runs. -/
theorem runs_objectToRecord (hs : σ.HasLayout s) (hk : σ.Has key) (hv : σ.Has value) :
    (objectToRecord s key value : Query ρ Answer).Runs σ := by
  refine Steady.bind (steady_keys? whole hk) whole fun τ keys later whole' _ => ?_
  have hs := later.hasLayout hs
  refine .look (fun υ later' => ?_) ?_
  · dsimp only [Query.bind]
    simp only [hasKey_eq later' hs]
  · dsimp only [Query.bind]
    split
    · exact runs_objectUnder whole' (later.has hk) (later.has hv) hs
    · exact .done trivial

theorem runs_carries {keys : Option (List (Key × Handle))} {name : Atom} (hk : σ.Has key)
    (hname : σ.Spells name) : (carries key keys name : Query ρ Bool).Runs σ := by
  unfold carries
  split
  · refine .look (fun τ later => ?_) (.done trivial)
    dsimp only [Query.bind]
    simp only [Key.isNamed_eq later.toGrows hname]
  · exact runs_admits whole hk hname

theorem runs_fieldOfRecord {keys : Option (List (Key × Handle))} {f : Field} (hk : σ.Has key)
    (hv : σ.Has value) (hf : σ.Has f.type) (hn : σ.Spells f.name) :
    (fieldOfRecord key value keys f : Query ρ Answer).Runs σ := by
  refine (runs_carries whole hk hn).bind whole fun b => ?_
  split
  · exact .done trivial
  · split
    · exact runs_related hv hf
    · exact .done trivial

/-- The rule from records to objects runs. -/
theorem runs_recordToObject (hk : σ.Has key) (hv : σ.Has value) (ht : σ.HasLayout t) :
    (recordToObject key value t : Query ρ Answer).Runs σ := by
  refine Steady.bind (steady_keys? whole hk) whole fun τ keys later whole' _ => ?_
  have ht := later.hasLayout ht
  have hk := later.has hk
  have hv := later.has hv
  refine Runs.andThen whole' (.every whole' fun f hf => ?_) ?_
  · exact runs_fieldOfRecord whole' hk hv (ht.parts _ (mem_parts_of_field hf)) (ht.names f hf)
  · split
    · next hi =>
      refine runs_indexUnder whole' (ht.parts _ (key_mem_parts hi))
        (ht.parts _ (value_mem_parts hi)) fun j hj => ?_
      obtain rfl := Option.some.inj hj
      exact ⟨hk, hv⟩
    · exact .done trivial

/-- The rule of records runs. -/
theorem runs_records {x : Variance} {key' value' : Handle} (hk : σ.Has key) (hv : σ.Has value)
    (hk' : σ.Has key') (hv' : σ.Has value') :
    (records x key value key' value' : Query ρ Answer).Runs σ := by
  refine (runs_sort? whole hk).bind whole fun a => (runs_sort? whole hk').bind whole fun b => ?_
  split
  · split
    · refine Steady.bind (steady_keys? whole hk') whole fun τ keys later whole' found => ?_
      refine Runs.andThen whole' (.every whole' fun k hm => ?_) ?_
      · exact runs_related (found k hm) (later.has hk)
      · exact runs_relate whole' (later.has hv) (later.has hv')
    · exact .done trivial
  · exact .done trivial

end

/-! ## §5. Unions and intersections -/

section

variable {s t : Handle} {members : List Handle} (whole : σ.IsWhole)
include whole

/-- The rule of union targets runs. -/
theorem runs_unionTarget (hs : σ.Has s) (hm : ∀ m ∈ members, σ.Has m) :
    (unionTarget s members : Query ρ Answer).Runs σ := by
  refine .look (fun τ later => ?_) ?_
  · dsimp only [Query.bind]
    unfold isMember
    rw [later.node?_eq hs]
  · dsimp only [Query.bind]
    split
    · exact .done trivial
    -- the members are asked first, and the literals looked at in the store after that
    · refine (Runs.any whole fun m h => runs_related hs (hm m h)).bind whole fun a => ?_
      split
      · exact .done trivial
      · refine .look (fun τ later => ?_) (.done trivial)
        have same : haveBooleans τ members = haveBooleans σ members := by
          unfold haveBooleans
          rw [any_eq_of_mem fun m h => later.hasBoolean_eq whole (hm m h) true,
            any_eq_of_mem fun m h => later.hasBoolean_eq whole (hm m h) false]
        dsimp only [Query.bind]
        rw [same]

theorem runs_mergedField {sources : List Layout} {f : Field}
    (hs : ∀ s ∈ sources, σ.HasLayout s) (hf : σ.Has f.type) :
    (mergedField sources f : Query ρ Answer).Runs σ := by
  unfold mergedField
  dsimp only
  split
  · exact .done trivial
  · split
    · exact .done trivial
    · refine Runs.any whole fun g hg => ?_
      obtain ⟨s, hmem, hg⟩ := List.mem_filterMap.1 hg
      exact runs_related ((hs s hmem).parts _ (mem_parts_of_field? hg)) hf

/-- The rule of merged objects runs. -/
theorem runs_merged {sources : List Layout} {t : Layout} (hs : ∀ s ∈ sources, σ.HasLayout s)
    (ht : σ.HasLayout t) : (merged sources t : Query ρ Answer).Runs σ := by
  refine Runs.andThen whole (.every whole fun f hf => ?_) ?_
  · exact runs_mergedField whole hs (ht.parts _ (mem_parts_of_field hf))
  · split
    · next hi =>
      exact Runs.every whole fun s hmem => runs_objectUnder whole
        (ht.parts _ (key_mem_parts hi)) (ht.parts _ (value_mem_parts hi)) (hs s hmem)
    · exact .done trivial

end

/-- The layouts are in the store. -/
def HasLayouts (σ : Store ρ) (shapes : Option (List Layout)) : Prop :=
  ∀ s ∈ shapes.getD [], σ.HasLayout s

theorem steady_layouts : ∀ {σ : Store ρ} {members : List Handle}, σ.IsWhole →
    (∀ m ∈ members, σ.Has m) → (layouts members).Steady HasLayouts σ := by
  intro σ members
  -- along the members, each in the store that the one before it leaves
  induction members generalizing σ with
  | nil => exact fun _ _ => .done fun s hs => by cases hs
  | cons m ms ih =>
    intro whole hm
    refine (steady_resolved (hm m List.mem_cons_self)).bind whole fun τ g later whole' hg => ?_
    refine .look (fun υ later' => ?_) ?_
    · obtain ⟨n, hn⟩ := hg
      have keeps := whole'.keeps g n hn
      dsimp only [Query.bind]
      rw [later'.node? hn, hn]
      cases n with
      | object o => dsimp only; rw [later'.object keeps]
      | _ => rfl
    · dsimp only [Query.bind]
      split
      · next o hn =>
        have tail := ih whole' fun x hx => later.has (hm x (List.mem_cons_of_mem m hx))
        refine tail.bind whole' fun υ shapes later' _ hshapes => .done ?_
        cases shapes with
        | none => intro s hs; cases hs
        | some shapes =>
          intro s hs
          rcases List.mem_cons.1 hs with rfl | hs
          · exact later'.hasLayout (whole'.hasLayout hn)
          · exact hshapes s hs
      · exact .done fun s hs => by cases hs

section

variable {s t : Handle} {source target : Node} {members : List Handle} (whole : σ.IsWhole)
include whole

/-- The rule of intersection sources runs. -/
theorem runs_intersectionSource (hm : ∀ m ∈ members, σ.Has m) (ht : σ.node? t = some target) :
    (intersectionSource members t target : Query ρ Answer).Runs σ := by
  refine (Runs.any whole fun m h => runs_related (hm m h) ⟨_, ht⟩).bind whole fun a => ?_
  split
  · exact .done trivial
  · split
    · next o =>
      -- no member fits alone: their shapes are read, and merged in the store after that
      refine Steady.bind (steady_layouts whole hm) whole fun τ shapes later whole' hs => ?_
      cases shapes with
      | none => exact .done trivial
      | some shapes =>
        have ht := later.node? ht
        refine .look (fun υ later' => ?_) ?_
        · dsimp only [Query.bind]
          rw [later'.object (whole'.keeps t _ ht)]
        · exact (runs_merged whole' hs (whole'.hasLayout ht)).bind whole' fun b => .done trivial
    · exact .done trivial

/-- The rule from intersections to unions runs. -/
theorem runs_intersectionToUnion {l : ListId} (hs : σ.node? s = some (.intersection l))
    (ht : σ.node? t = some target) (hm : ∀ m ∈ members, σ.Has m) :
    (intersectionToUnion s l t target members : Query ρ Answer).Runs σ := by
  refine (runs_unionTarget whole ⟨_, hs⟩ hm).bind whole fun a => ?_
  split
  · exact .done trivial
  · refine .look (fun τ later => ?_) ?_
    · dsimp only [Query.bind]
      rw [later.list (whole.keeps s _ hs)]
    · refine (runs_intersectionSource whole (fun m h => ?_) ht).bind whole fun b => .done trivial
      exact whole.has_component hs h

end

/-! ## §6. The step -/

section

variable {flags : Flags} {rule : Rule} {s t : Handle} {source target : Node} (whole : σ.IsWhole)
  (hs : σ.node? s = some source) (ht : σ.node? t = some target)
include whole hs ht

/-- Every rule of the table runs on nodes of the store. -/
theorem runs_byRule : (byRule flags rule source target : Query ρ Answer).Runs σ := by
  have left : ∀ g ∈ σ.components source, σ.Has g := fun g hg => whole.has_component hs hg
  have right : ∀ g ∈ σ.components target, σ.Has g := fun g hg => whole.has_component ht hg
  have keeps := whole.keeps s source hs
  have keeps' := whole.keeps t target ht
  refine .look (fun τ later => ?_) ?_
  · -- the shapes of the two nodes are the same later on
    dsimp only [Query.bind]
    split
    · rfl
    · rfl
    · rw [later.tuple keeps, later.tuple keeps']
    · rw [later.tuple keeps]
    · rw [later.tuple keeps']
    · rw [later.object keeps, later.object keeps']
    · rw [later.object keeps]
    · rw [later.object keeps']
    · rfl
    · rfl
    · rfl
    · rfl
    · rw [later.function keeps, later.function keeps']
    · rfl
  · dsimp only [Query.bind]
    -- one case for each rule, in the order of `byRule`
    split
    · exact .done trivial
    · exact runs_relate whole (left _ (by simp [components])) (right _ (by simp [components]))
    · exact runs_sequences whole left right
    · exact runs_tupleToArray whole left (right _ (by simp [components]))
    · exact runs_arrayToTuple whole (left _ (by simp [components])) right
    · exact runs_objects whole (whole.hasLayout hs) (whole.hasLayout ht)
    · exact runs_objectToRecord whole (whole.hasLayout hs) (right _ (by simp [components]))
        (right _ (by simp [components]))
    · exact runs_recordToObject whole (left _ (by simp [components]))
        (left _ (by simp [components])) (whole.hasLayout ht)
    · exact runs_records whole (left _ (by simp [components])) (left _ (by simp [components]))
        (right _ (by simp [components])) (right _ (by simp [components]))
    · exact runs_relate whole (left _ (by simp [components])) (right _ (by simp [components]))
    · exact runs_relate whole (left _ (by simp [components])) (right _ (by simp [components]))
    · exact Runs.andThen whole
        (runs_relate whole (left _ (by simp [components])) (right _ (by simp [components])))
        (runs_relate whole (left _ (by simp [components])) (right _ (by simp [components])))
    · exact runs_functions whole left right
    · exact .done trivial

/-- The rule of brands runs on nodes of the store. -/
theorem runs_brands : (brands source target t : Query ρ Answer).Runs σ := by
  unfold brands
  split
  · have base := whole.has_component hs (List.mem_singleton_self _)
    split
    · exact runs_related base (whole.has_component ht (List.mem_singleton_self _))
    · exact runs_related base ⟨_, ht⟩
  · exact runs_related (whole.has_component hs (List.mem_singleton_self _)) ⟨_, ht⟩
  · exact .done trivial

/-- Between two nodes of the store the rules run. -/
theorem runs_nodes : (nodes flags s t source target : Query ρ Answer).Runs σ := by
  have left : ∀ g ∈ σ.components source, σ.Has g := fun g hg => whole.has_component hs hg
  have right : ∀ g ∈ σ.components target, σ.Has g := fun g hg => whole.has_component ht hg
  have keeps := whole.keeps s source hs
  have keeps' := whole.keeps t target ht
  refine .look (fun τ later => ?_) ?_
  · dsimp only [Query.bind]
    rw [later.alternatives?_eq keeps, later.alternatives?_eq keeps']
    split
    · rfl
    · rfl
    · split
      · rfl
      · rw [later.list keeps']
      · rw [later.list keeps]
      · rfl
      · rfl
      · rfl
  · dsimp only [Query.bind]
    -- unions first, those of the source before those of the target
    split
    · next members h =>
      exact Runs.every whole fun m hm =>
        runs_related (left m (mem_components_of_alternatives? h hm)) ⟨_, ht⟩
    · next members _ h =>
      have member : ∀ m ∈ members, σ.Has m := fun m hm =>
        right m (mem_components_of_alternatives? h hm)
      split
      · exact runs_intersectionToUnion whole hs ht member
      · exact runs_unionTarget whole ⟨_, hs⟩ member
    · split
      · exact .done trivial
      · exact Runs.every whole fun m hm => runs_related ⟨_, hs⟩ (right m hm)
      · exact runs_intersectionSource whole left ht
      · exact runs_brands whole hs ht
      · exact runs_brands whole hs ht
      · split
        · exact runs_byRule whole hs ht
        · exact .done trivial

end

/-- **THE STEP GOES ON IN A GROWING STORE.** -/
theorem runs_step (flags : Flags) {s t : Handle} (whole : σ.IsWhole) (hs : σ.Has s)
    (ht : σ.Has t) : (step flags s t : Query ρ Answer).Runs σ := by
  obtain ⟨source, hs⟩ := hs
  obtain ⟨target, ht⟩ := ht
  refine .look (fun τ later => ?_) ?_
  · dsimp only [Query.bind]
    rw [later.node? hs, later.node? ht, hs, ht]
  · dsimp only [Query.bind]
    rw [hs, ht]
    dsimp only
    split
    · refine .resolve ⟨_, hs⟩ fun τ x later _ hx => .resolve (later.has ⟨_, ht⟩) ?_
      exact fun υ y later' _ hy => runs_related (later'.has hx) hy
    · exact runs_nodes whole hs ht

end Query

end Assignability
