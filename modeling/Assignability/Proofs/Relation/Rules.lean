/-
  Assignability.Proofs.Relation.Rules
  ───────────────────────────────────
  **THE RULES ASK ABOUT PARTS, AND MORE PARTS CAN ONLY HELP.**

  One lemma for each rule, in the order of the rules themselves, and from
  them the statement on the whole step:

      (Query.step flags s t).Positive v (v.scope s t)

  What looks into key types asks nothing at all and only follows the lazy
  nodes in them.
-/
import Assignability.Proofs.Relation.Part

namespace Assignability.Query

open View

variable {ρ : Type} {v : View ρ} {c : Scope}

/-! ## §1. Parts by position -/

/-- A variance asks for a pair, perhaps in both directions. -/
theorem positive_relate {x : Variance} {s t : Handle} (h : c.asks s t) (h' : c.asks t s) :
    (relate x s t : Query ρ Answer).Positive v c := by
  cases x with
  | covariant => exact .related h
  | contravariant => exact .related h'
  | invariant => exact .andThen (.related h) (.related h')

/-- Sequences pair parts of the one with parts of the other. -/
theorem mem_parts_of_mem_pairs {s t : Sequence} {p : Handle × Handle} (hp : p ∈ s.pairs t) :
    p.1 ∈ s.parts ∧ p.2 ∈ t.parts := by
  unfold Sequence.pairs at hp
  unfold Sequence.parts
  rcases List.mem_append.1 hp with hp | hp
  · have := List.of_mem_zip hp
    exact ⟨List.mem_append_left _ this.1, List.mem_append_left _ this.2⟩
  · cases hr : t.rest with
    | none => rw [hr] at hp; cases hp
    | some rest =>
      rw [hr] at hp
      obtain ⟨item, hi, rfl⟩ := List.mem_map.1 hp
      refine ⟨?_, List.mem_append_right _ (by simp)⟩
      rcases List.mem_append.1 hi with hi | hi
      · exact List.mem_append_left _ (List.mem_of_mem_drop hi)
      · exact List.mem_append_right _ hi

/-- Sequences ask for parts against parts. -/
theorem positive_sequence {flags : Flags} {arity : Arity} {s t : Sequence}
    (h : ∀ a ∈ s.parts, ∀ b ∈ t.parts, c.asks a b) :
    (sequence flags arity s t : Query ρ Answer).Positive v c := by
  unfold sequence
  split
  · refine .every fun p hp => .related ?_
    exact h _ (mem_parts_of_mem_pairs hp).1 _ (mem_parts_of_mem_pairs hp).2
  · exact .fails

/-- Under a variance they do so, perhaps in both directions. -/
theorem positive_sequences {flags : Flags} {x : Variance} {arity : Arity} {s t : Sequence}
    (h : ∀ a ∈ s.parts, ∀ b ∈ t.parts, c.asks a b ∧ c.asks b a) :
    (sequences flags x arity s t : Query ρ Answer).Positive v c := by
  have forward : (sequence flags arity s t : Query ρ Answer).Positive v c :=
    positive_sequence fun a ha b hb => (h a ha b hb).1
  have backward : (sequence flags arity t s : Query ρ Answer).Positive v c :=
    positive_sequence fun b hb a ha => (h a ha b hb).2
  cases x with
  | covariant => exact forward
  | contravariant => exact backward
  | invariant => exact .andThen forward backward

/-- A tuple asks for its parts against the element. -/
theorem positive_tupleToArray {x : Variance} {s : Sequence} {element : Handle}
    (h : ∀ a ∈ s.parts, c.asks a element ∧ c.asks element a) :
    (tupleToArray x s element : Query ρ Answer).Positive v c :=
  .every fun a ha => positive_relate (h a ha).1 (h a ha).2

/-- An array asks for its element against the parts. -/
theorem positive_arrayToTuple {x : Variance} {element : Handle} {t : Sequence}
    (h : ∀ b ∈ t.parts, c.asks element b ∧ c.asks b element) :
    (arrayToTuple x element t : Query ρ Answer).Positive v c := by
  unfold arrayToTuple
  split
  · next rest _ hr =>
    have hb : rest ∈ t.parts := List.mem_append_right _ (by rw [hr]; simp)
    exact positive_relate (h rest hb).1 (h rest hb).2
  · exact .fails

/-- Functions ask for parts against parts, in both directions. -/
theorem positive_functions {flags : Flags} {rule : Rule} {s t : Signature}
    (h : ∀ a ∈ s.parts, ∀ b ∈ t.parts, c.asks a b ∧ c.asks b a) :
    (functions flags rule s t : Query ρ Answer).Positive v c := by
  refine .andThen (positive_sequences fun a ha b hb => ?_) (positive_relate ?_ ?_)
  · exact h a (List.mem_cons_of_mem _ ha) b (List.mem_cons_of_mem _ hb)
  · exact (h _ List.mem_cons_self _ List.mem_cons_self).1
  · exact (h _ List.mem_cons_self _ List.mem_cons_self).2

/-! ## §2. Key types -/

/-- Whether a name is admitted is found out below the key type, at every level. -/
theorem quiet_admitsWithin {name : Atom} (levels : Nat) :
    ∀ key : Handle, (∀ h, v.Below key h → c.follows h) →
      (admitsWithin levels key name : Query ρ Bool).Quiet v c fun _ => True := by
  induction levels with
  | zero => intro key _; exact .done trivial
  | succ levels ih =>
    intro key hc
    have inner : ∀ g, v.Below key g →
        (admitsWithin levels g name : Query ρ Bool).Quiet v c fun _ => True :=
      fun g hg => ih g fun h hh => hc h (hg.trans hh)
    refine .look ?_
    dsimp only [Query.bind]
    -- one case for each sort of key; the first six ask nothing
    split
    · exact .done trivial
    · exact .done trivial
    · exact .done trivial
    · exact .done trivial
    · exact .done trivial
    · exact .done trivial
    · next hn => exact .anyM fun m hm => inner m (within_component hn hm).below
    · next hn => exact .anyM fun m hm => inner m (within_component hn hm).below
    · next hn => exact .allM fun m hm => inner m (within_component hn hm).below
    · next hn => exact inner _ (within_component hn (List.mem_singleton_self _)).below
    · exact (Quiet.resolved (hc key (.refl key))).bind fun g hg =>
        inner g (hg ▸ below_stands key)
    · exact .done trivial

/-- And so it is within the levels of the rules. -/
theorem quiet_admits {key : Handle} {name : Atom} (hc : ∀ h, v.Below key h → c.follows h) :
    (admits key name : Query ρ Bool).Quiet v c fun _ => True :=
  quiet_admitsWithin Key.nesting key hc

/-- Results that speak of keys below `key` alone. -/
def KeysBelow (v : View ρ) (key : Handle) (keys : Option (List (Key × Handle))) : Prop :=
  ∀ k ∈ keys.getD [], v.Below key k.2

/-- Keys that are collected come from below the key type. -/
theorem quiet_collect {key : Handle} {q : Handle → Query ρ (Option (List (Key × Handle)))} :
    ∀ {xs : List Handle}, (∀ x ∈ xs, (q x).Quiet v c (KeysBelow v key)) →
      (collect q xs).Quiet v c (KeysBelow v key) := by
  intro xs
  -- along the list; what was found before it stays below the key type
  induction xs with
  | nil => intro _; exact .done fun k hk => by cases hk
  | cons x xs ih =>
    intro h
    have tail := ih fun y hy => h y (List.mem_cons_of_mem x hy)
    refine (h x List.mem_cons_self).bind fun found hf => ?_
    cases found with
    | none => exact .done fun k hk => by cases hk
    | some found =>
      refine tail.bind fun rest hr => .done ?_
      cases rest with
      | none => intro k hk; cases hk
      | some rest =>
        intro k hk
        rcases List.mem_append.1 hk with hk | hk
        · exact hf k hk
        · exact hr k hk

/-- The keys of a key type are found below it, at every level. -/
theorem quiet_keysWithin? (levels : Nat) :
    ∀ key : Handle, (∀ h, v.Below key h → c.follows h) →
      (keysWithin? levels key : Query ρ (Option (List (Key × Handle)))).Quiet v c
        (KeysBelow v key) := by
  induction levels with
  | zero => intro key _; exact .done fun k hk => by cases hk
  | succ levels ih =>
    intro key hc
    have inner : ∀ g, v.Below key g →
        (keysWithin? levels g : Query ρ _).Quiet v c (KeysBelow v key) := by
      intro g hg
      refine (ih g fun h hh => hc h (hg.trans hh)).imp fun keys hk k hm => ?_
      exact hg.trans (hk k hm)
    have self : ∀ k : Key, KeysBelow v key (some [(k, key)]) := by
      intro k p hp
      obtain rfl : p = (k, key) := List.mem_singleton.1 hp
      exact .refl key
    refine .look ?_
    dsimp only [Query.bind]
    -- the keys of a key type stand below it, itself among them
    split
    · exact .done fun k hk => by cases hk
    · exact .done (self _)
    · exact .done (self _)
    · next hn => exact quiet_collect fun m hm => inner m (within_component hn hm).below
    · next hn => exact quiet_collect fun m hm => inner m (within_component hn hm).below
    · exact (Quiet.resolved (hc key (.refl key))).bind fun g hg =>
        inner g (hg ▸ below_stands key)
    · exact .done fun k hk => by cases hk

/-- And so they are within the levels of the rules. -/
theorem quiet_keys? {key : Handle} (hc : ∀ h, v.Below key h → c.follows h) :
    (keys? key : Query ρ _).Quiet v c (KeysBelow v key) := quiet_keysWithin? Key.nesting key hc

/-- To join sorts asks for nothing else. -/
theorem quiet_joinSorts {q : Handle → Query ρ (Option KeySort)} :
    ∀ {xs : List Handle} {sort : KeySort}, (∀ x ∈ xs, (q x).Quiet v c fun _ => True) →
      (joinSorts q sort xs).Quiet v c fun _ => True := by
  intro xs
  induction xs with
  | nil => intro _ _; exact .done trivial
  | cons x xs ih =>
    intro sort h
    refine (h x List.mem_cons_self).bind fun next _ => ?_
    cases next with
    | none => exact .done trivial
    | some next => exact ih fun y hy => h y (List.mem_cons_of_mem x hy)

/-- The sort of a key type is found below it, at every level. -/
theorem quiet_sortWithin? (levels : Nat) :
    ∀ key : Handle, (∀ h, v.Below key h → c.follows h) →
      (sortWithin? levels key : Query ρ (Option KeySort)).Quiet v c fun _ => True := by
  -- on the levels: members and what is stood for are below the key type
  induction levels with
  | zero => intro key _; exact .done trivial
  | succ levels ih =>
    intro key hc
    have inner : ∀ g, v.Below key g →
        (sortWithin? levels g : Query ρ (Option KeySort)).Quiet v c fun _ => True :=
      fun g hg => ih g fun h hh => hc h (hg.trans hh)
    refine .look ?_
    dsimp only [Query.bind]
    split
    · exact .done trivial
    · exact .done trivial
    · next hn => exact quiet_joinSorts fun m hm => inner m (within_component hn hm).below
    · next hn => exact quiet_joinSorts fun m hm => inner m (within_component hn hm).below
    · next hn => exact inner _ (within_component hn (List.mem_singleton_self _)).below
    · exact (Quiet.resolved (hc key (.refl key))).bind fun g hg =>
        inner g (hg ▸ below_stands key)
    · exact .done trivial

/-- And so it is within the levels of the rules. -/
theorem quiet_sort? {key : Handle} (hc : ∀ h, v.Below key h → c.follows h) :
    (sort? key : Query ρ (Option KeySort)).Quiet v c fun _ => True :=
  quiet_sortWithin? Key.nesting key hc

/-- An overlap asks for the two key types only. -/
theorem quiet_overlap {a b : Handle} (h : c.keys a b) (h' : c.keys b a) :
    (overlap a b : Query ρ Bool).Quiet v c fun _ => True := by
  refine .askKeys h (fun x => by rw [Answer.isTrue_ofBool]) fun x => ?_
  split
  · exact .done trivial
  · refine .askKeys h' (fun y => by rw [Answer.isTrue_ofBool]) fun y => .done trivial

/-! ## §3. Objects and records -/

/-- The type of a field is a part of the layout. -/
theorem mem_parts_of_field {s : Layout} {f : Field} (hf : f ∈ s.fields) : f.type ∈ s.parts :=
  List.mem_append_left _ (List.mem_map_of_mem hf)

/-- So is the type of a field that is found. -/
theorem mem_parts_of_field? {s : Layout} {name : Atom} {f : Field} (hf : s.field? name = some f) :
    f.type ∈ s.parts := mem_parts_of_field (List.mem_of_find?_eq_some hf)

/-- The key type of the index signature is a part of the layout. -/
theorem key_mem_parts {s : Layout} {index : IndexSignature} (hi : s.index = some index) :
    index.key ∈ s.parts := by
  simp [Layout.parts, hi, IndexSignature.parts]

/-- So is its value type. -/
theorem value_mem_parts {s : Layout} {index : IndexSignature} (hi : s.index = some index) :
    index.value ∈ s.parts := by
  simp [Layout.parts, hi, IndexSignature.parts]

/-- A field asks for source parts against its type. -/
theorem positive_field {s : Layout} {f : Field} (h : ∀ a ∈ s.parts, c.asks a f.type)
    (hc : ∀ a ∈ s.parts, ∀ g, v.Below a g → c.follows g) :
    (field s f : Query ρ Answer).Positive v c := by
  unfold field
  split
  · next hf =>
    split
    · exact .fails
    · exact .related (h _ (mem_parts_of_field? hf))
  · split
    · exact .fails
    · split
      · next hi =>
        refine (quiet_admits (hc _ (key_mem_parts hi))).bindPositive fun b _ => ?_
        cases b with
        | true => exact .related (h _ (value_mem_parts hi))
        | false => exact .holds
      · exact .holds

/-- A source field is asked for against the value of the index signature. -/
theorem positive_fieldUnder {t : IndexSignature} {f : Field} (h : c.asks f.type t.value)
    (hc : ∀ g, v.Below t.key g → c.follows g) :
    (fieldUnder t f : Query ρ Answer).Positive v c := by
  refine (quiet_admits hc).bindPositive fun b _ => ?_
  cases b with
  | true => exact .related h
  | false => exact .holds

/-- Two index signatures ask for their values, and for their keys. -/
theorem positive_indexUnder {t : IndexSignature} {s : Option IndexSignature}
    (h : ∀ index, s = some index →
      c.asks index.value t.value ∧ c.keys index.key t.key ∧ c.keys t.key index.key) :
    (indexUnder t s : Query ρ Answer).Positive v c := by
  cases s with
  | none => exact .holds
  | some index =>
    obtain ⟨hv, hk, hk'⟩ := h index rfl
    refine (quiet_overlap hk hk').bindPositive fun b _ => ?_
    cases b with
    | true => exact .related hv
    | false => exact .holds

/-- An object asks for its parts against the value of the index signature. -/
theorem positive_objectUnder {t : IndexSignature} {s : Layout}
    (h : ∀ a ∈ s.parts, c.asks a t.value)
    (hk : ∀ index, s.index = some index → c.keys index.key t.key ∧ c.keys t.key index.key)
    (hc : ∀ g, v.Below t.key g → c.follows g) :
    (objectUnder t s : Query ρ Answer).Positive v c := by
  refine .andThen (.every fun f hf => positive_fieldUnder ?_ hc) (positive_indexUnder ?_)
  · exact h _ (mem_parts_of_field hf)
  · intro index hi
    exact ⟨h _ (value_mem_parts hi), hk index hi⟩

/-- The two layouts may be compared: their parts may be asked about, source before target, and
so may their key types, both ways. -/
structure Comparable (v : View ρ) (c : Scope) (s t : Layout) : Prop where
  asks : ∀ a ∈ s.parts, ∀ b ∈ t.parts, c.asks a b
  keys : ∀ i j, s.index = some i → t.index = some j → c.keys i.key j.key ∧ c.keys j.key i.key
  sourceFollows : ∀ a ∈ s.parts, ∀ g, v.Below a g → c.follows g
  targetFollows : ∀ b ∈ t.parts, ∀ g, v.Below b g → c.follows g

theorem Comparable.positive_under {s t : Layout} (h : Comparable v c s t) {index : IndexSignature}
    (hi : t.index = some index) : (objectUnder index s : Query ρ Answer).Positive v c :=
  positive_objectUnder (fun a ha => h.asks a ha _ (value_mem_parts hi))
    (fun i hs => h.keys i index hs hi) (h.targetFollows _ (key_mem_parts hi))

/-- Objects ask for parts against parts. -/
theorem positive_objects {s t : Layout} (h : Comparable v c s t) :
    (objects s t : Query ρ Answer).Positive v c := by
  refine .andThen (.every fun f hf => positive_field ?_ h.sourceFollows) ?_
  · exact fun a ha => h.asks a ha _ (mem_parts_of_field hf)
  · split
    · next hi => exact h.positive_under hi
    · exact .holds

theorem positive_objectToRecord {s : Layout} {key value : Handle}
    (h : ∀ a ∈ s.parts, c.asks a value)
    (hk : ∀ index, s.index = some index → c.keys index.key key ∧ c.keys key index.key)
    (hc : ∀ g, v.Below key g → c.follows g) :
    (objectToRecord s key value : Query ρ Answer).Positive v c := by
  refine (quiet_keys? hc).bindPositive fun keys _ => .look ?_
  dsimp only [Query.bind]
  split
  · exact positive_objectUnder h hk hc
  · exact .fails

theorem positive_fieldOfRecord {key value : Handle} {keys : Option (List (Key × Handle))}
    {t : Field} (h : c.asks value t.type) (hc : ∀ g, v.Below key g → c.follows g) :
    (fieldOfRecord key value keys t : Query ρ Answer).Positive v c := by
  have carried : (carries key keys t.name : Query ρ Bool).Quiet v c fun _ => True := by
    unfold carries
    split
    · exact .look (.done trivial)
    · exact quiet_admits hc
  refine carried.bindPositive fun b _ => ?_
  split
  · exact .fails
  · split
    · exact .related h
    · exact .holds

theorem positive_recordToObject {key value : Handle} {t : Layout}
    (h : ∀ b ∈ t.parts, c.asks value b)
    (hk : ∀ index, t.index = some index → c.keys key index.key ∧ c.keys index.key key)
    (hc : ∀ g, v.Below key g → c.follows g) :
    (recordToObject key value t : Query ρ Answer).Positive v c := by
  refine (quiet_keys? hc).bindPositive fun keys _ => .andThen (.every fun f hf => ?_) ?_
  · exact positive_fieldOfRecord (h _ (mem_parts_of_field hf)) hc
  · split
    · next index hi =>
      refine positive_indexUnder fun i he => ?_
      obtain rfl : (⟨key, value⟩ : IndexSignature) = i := Option.some.inj he
      exact ⟨h _ (value_mem_parts hi), hk index hi⟩
    · exact .holds

theorem positive_records {x : Variance} {sk sv tk tv : Handle} (h : c.asks sv tv)
    (h' : c.asks tv sv) (hk : ∀ k, v.Below tk k → c.asks k sk)
    (hs : ∀ g, v.Below sk g → c.follows g) (ht : ∀ g, v.Below tk g → c.follows g) :
    (records x sk sv tk tv : Query ρ Answer).Positive v c := by
  refine (quiet_sort? hs).bindPositive fun a _ => (quiet_sort? ht).bindPositive fun b _ => ?_
  split
  · split
    · refine (quiet_keys? ht).bindPositive fun keys hb => .andThen (.every fun k hm => ?_) ?_
      · exact .related (hk _ (hb k hm))
      · exact positive_relate h h'
    · exact .fails
  · exact .fails

/-! ## §4. Unions and intersections -/

theorem positive_unionTarget {s : Handle} {members : List Handle}
    (h : ∀ m ∈ members, c.asks s m) : (unionTarget s members : Query ρ Answer).Positive v c := by
  refine .look ?_
  dsimp only [Query.bind]
  split
  · exact .holds
  · -- what is left to the second query needs no question
    refine .instead
      (r := .look fun σ => .done (.ofBool (s == .boolean && haveBooleans σ members)))
      (.any fun m hm => .related (h m hm)) (.look (.ofBool _)) fun a _ => ?_
    show Query.look _ = Query.look _
    congr 1
    funext σ
    dsimp only [Query.bind, pure_eq]
    cases (s == .boolean && haveBooleans σ members) <;> rfl

theorem positive_mergedField {sources : List Layout} {t : Field}
    (h : ∀ s ∈ sources, ∀ a ∈ s.parts, c.asks a t.type) :
    (mergedField sources t : Query ρ Answer).Positive v c := by
  unfold mergedField
  dsimp only
  split
  · exact .ofBool _
  · split
    · exact .fails
    · refine .any fun f hf => .related ?_
      obtain ⟨s, hs, hf⟩ := List.mem_filterMap.1 hf
      exact h s hs _ (mem_parts_of_field? hf)

theorem positive_merged {sources : List Layout} {t : Layout}
    (h : ∀ s ∈ sources, Comparable v c s t) : (merged sources t : Query ρ Answer).Positive v c := by
  refine .andThen (.every fun f hf => positive_mergedField fun s hs a ha => ?_) ?_
  · exact (h s hs).asks a ha _ (mem_parts_of_field hf)
  · split
    · next hi => exact .every fun s hs => (h s hs).positive_under hi
    · exact .holds

/-- The layouts of objects that some of the members stand for. -/
def LayoutsOf (v : View ρ) (members : List Handle) (shapes : Option (List Layout)) : Prop :=
  ∀ s ∈ shapes.getD [], ∃ m ∈ members, ∃ o,
    v.store.node? (v.stands m) = some (.object o) ∧ s = v.store.object o

theorem quiet_layouts : ∀ {members : List Handle}, (∀ m ∈ members, c.follows m) →
    (layouts members : Query ρ _).Quiet v c (LayoutsOf v members) := by
  intro members
  -- along the members; each layout is that of what the member stands for
  induction members with
  | nil => intro _; exact .done fun s hs => by cases hs
  | cons m ms ih =>
    intro h
    refine (Quiet.resolved (h m List.mem_cons_self)).bind fun g hg => .look ?_
    subst hg
    dsimp only [Query.bind]
    split
    · next o hn =>
      refine (ih fun x hx => h x (List.mem_cons_of_mem m hx)).bind fun shapes hs => .done ?_
      cases shapes with
      | none => intro s hs; cases hs
      | some shapes =>
        intro s hm
        rcases List.mem_cons.1 hm with rfl | hm
        · exact ⟨m, List.mem_cons_self, o, hn, rfl⟩
        · obtain ⟨x, hx, p, hp⟩ := hs s hm
          exact ⟨x, List.mem_cons_of_mem m hx, p, hp⟩
    · exact .done fun s hs => by cases hs

/-- What is tried where no member of a source intersection fits alone. -/
def asOneObject (members : List Handle) (targetNode : Node) : Query ρ Answer :=
  match targetNode with
  | .object shape => do
    match ← layouts members with
    | some shapes => do
      let σ ← store
      merged shapes (σ.object shape)
    | none => pure .fails
  | _ => pure .fails

theorem positive_intersectionSource {members : List Handle} {t : Handle} {n : Node}
    (h : ∀ m ∈ members, c.asks m t) (hf : ∀ m ∈ members, c.follows m)
    (hm : ∀ o, n = .object o → ∀ m ∈ members, ∀ p,
      v.store.node? (v.stands m) = some (.object p) →
        Comparable v c (v.store.object p) (v.store.object o)) :
    (intersectionSource members t n : Query ρ Answer).Positive v c := by
  have second : (asOneObject members n : Query ρ Answer).Positive v c := by
    unfold asOneObject
    split
    · next o =>
      refine (quiet_layouts hf).bindPositive fun shapes hs => ?_
      cases shapes with
      | none => exact .fails
      | some shapes =>
        refine .look (positive_merged fun s hmem => ?_)
        obtain ⟨m, hmm, p, hp, rfl⟩ := hs s hmem
        exact hm o rfl m hmm p hp
    · exact .fails
  refine .instead (.any fun m hmem => .related (h m hmem)) second fun a _ => ?_
  -- only an object can be fit by the members together
  unfold asOneObject
  cases n <;> try rfl
  dsimp only [bind_eq]
  rw [bind_assoc]
  congr 1
  funext shapes
  cases shapes with
  | none => rfl
  | some shapes => rfl

theorem positive_intersectionToUnion {s t : Handle} {l : ListId} {n : Node}
    {members : List Handle} (h : ∀ m ∈ members, c.asks s m)
    (hs : (intersectionSource (v.store.list l) t n : Query ρ Answer).Positive v c) :
    (intersectionToUnion s l t n members : Query ρ Answer).Positive v c := by
  refine .orElse (r := .look fun σ => intersectionSource (σ.list l) t n)
    (positive_unionTarget h) (.look hs) ?_ ?_
  · intro a ha
    right
    rw [if_pos ha]
    rfl
  · intro a ha
    rw [if_neg (by rw [ha]; decide)]
    rfl

/-! ## §5. The step -/

section

variable {flags : Flags} {s t : Handle} {source target : Node}

/-- The layouts of two objects may be compared where their handles are. -/
theorem comparable_scope {a b : Handle} {o p : ObjectId} (ha : v.Below s a) (hb : v.Below t b)
    (hao : v.store.node? a = some (.object o)) (hbp : v.store.node? b = some (.object p)) :
    Comparable v (v.scope s t) (v.store.object o) (v.store.object p) := by
  have left : ∀ x ∈ (v.store.object o).parts, v.Within s x := fun x hx =>
    ha.within (within_component hao hx)
  have right : ∀ x ∈ (v.store.object p).parts, v.Within t x := fun x hx =>
    hb.within (within_component hbp hx)
  constructor
  · exact fun x hx y hy => .left (left x hx) (right y hy).below
  · intro i j hi hj
    have hi : v.KeyBelow s i.key := ⟨a, ha, by simp [Store.keyTypes, hao, hi]⟩
    have hj : v.KeyBelow t j.key := ⟨b, hb, by simp [Store.keyTypes, hbp, hj]⟩
    exact ⟨.inl ⟨hi, hj⟩, .inr ⟨hi, hj⟩⟩
  · exact fun x hx g hg => .inl ((left x hx).below.trans hg)
  · exact fun x hx g hg => .inr ((right x hx).below.trans hg)

/-- Every rule of the table asks within the scope of the pair. -/
theorem positive_byRule {rule : Rule} (hs : v.store.node? s = some source)
    (ht : v.store.node? t = some target) :
    (byRule flags rule source target : Query ρ Answer).Positive v (v.scope s t) := by
  have left : ∀ a ∈ v.store.components source, v.Within s a := fun a ha => within_component hs ha
  have right : ∀ b ∈ v.store.components target, v.Within t b := fun b hb => within_component ht hb
  have both : ∀ a ∈ v.store.components source, ∀ b ∈ v.store.components target,
      v.Poses s t a b ∧ v.Poses s t b a := fun a ha b hb =>
    ⟨.left (left a ha) (right b hb).below, (Poses.left (left a ha) (right b hb).below).swap⟩
  have related : ∀ {x : Variance} {a b : Handle}, a ∈ v.store.components source →
      b ∈ v.store.components target →
        (relate x a b : Query ρ Answer).Positive v (v.scope s t) :=
    fun ha hb => positive_relate (both _ ha _ hb).1 (both _ ha _ hb).2
  refine .look ?_
  -- one case for each rule, in the order of `byRule`
  split
  · exact .ofBool _
  · exact related (by simp [Store.components]) (by simp [Store.components])
  · exact positive_sequences both
  · exact positive_tupleToArray fun a ha => both a ha _ (by simp [Store.components])
  · exact positive_arrayToTuple fun b hb => both _ (by simp [Store.components]) b hb
  · exact positive_objects (comparable_scope (.refl s) (.refl t) hs ht)
  · next o key value =>
    refine positive_objectToRecord ?_ ?_ ?_
    · exact fun a ha => (both a ha value (by simp [Store.components])).1
    · intro index hi
      have hk : v.KeyBelow s index.key := ⟨s, .refl s, by simp [Store.keyTypes, hs, hi]⟩
      have hk' : v.KeyBelow t key := ⟨t, .refl t, by simp [Store.keyTypes, ht]⟩
      exact ⟨.inl ⟨hk, hk'⟩, .inr ⟨hk, hk'⟩⟩
    · exact fun g hg => .inr ((right key (by simp [Store.components])).below.trans hg)
  · next key value p =>
    refine positive_recordToObject ?_ ?_ ?_
    · exact fun b hb => (both value (by simp [Store.components]) b hb).1
    · intro index hi
      have hk : v.KeyBelow s key := ⟨s, .refl s, by simp [Store.keyTypes, hs]⟩
      have hk' : v.KeyBelow t index.key := ⟨t, .refl t, by simp [Store.keyTypes, ht, hi]⟩
      exact ⟨.inl ⟨hk, hk'⟩, .inr ⟨hk, hk'⟩⟩
    · exact fun g hg => .inl ((left key (by simp [Store.components])).below.trans hg)
  · next sk sv tk tv =>
    have values := both sv (by simp [Store.components]) tv (by simp [Store.components])
    have sourceKey := left sk (by simp [Store.components])
    have targetKey := right tk (by simp [Store.components])
    refine positive_records values.1 values.2 ?_ ?_ ?_
    · exact fun k hk => (Poses.left sourceKey (targetKey.below.trans hk)).swap
    · exact fun g hg => .inl (sourceKey.below.trans hg)
    · exact fun g hg => .inr (targetKey.below.trans hg)
  · exact related (by simp [Store.components]) (by simp [Store.components])
  · exact related (by simp [Store.components]) (by simp [Store.components])
  · exact .andThen (related (by simp [Store.components]) (by simp [Store.components]))
      (related (by simp [Store.components]) (by simp [Store.components]))
  · exact positive_functions both
  · exact .fails

/-- The rule of brands asks within the scope of the pair. -/
theorem positive_brands (hs : v.store.node? s = some source)
    (ht : v.store.node? t = some target) :
    (brands source target t : Query ρ Answer).Positive v (v.scope s t) := by
  unfold brands
  split
  · next base _ base' _ =>
    have hb : v.Within s base := within_component hs (List.mem_singleton_self _)
    have hb' : v.Within t base' := within_component ht (List.mem_singleton_self _)
    split
    · exact .related (.left hb hb'.below)
    · exact .related (.left hb (.refl t))
  · exact .related (.left (within_component hs (List.mem_singleton_self _)) (.refl t))
  · exact .fails

/-- Between two nodes nothing is asked outside the scope of the pair. -/
theorem positive_nodes (hs : v.store.node? s = some source) (ht : v.store.node? t = some target) :
    (nodes flags s t source target : Query ρ Answer).Positive v (v.scope s t) := by
  have left : ∀ a ∈ v.store.components source, v.Poses s t a t := fun a ha =>
    .left (within_component hs ha) (.refl t)
  have right : ∀ b ∈ v.store.components target, v.Poses s t s b := fun b hb =>
    .right (.refl s) (within_component ht hb)
  have alternatives : ∀ {n : Node} {members : List Handle},
      v.store.alternatives? n = some members → v.store.components n = members := by
    intro n members h
    cases n <;> simp_all [Store.alternatives?, Store.components]
  have asIntersection : ∀ {l : ListId}, source = .intersection l →
      (intersectionSource (v.store.list l) t target : Query ρ Answer).Positive v
        (v.scope s t) := by
    rintro l rfl
    refine positive_intersectionSource left ?_ ?_
    · exact fun m hm => .inl (within_component hs hm).below
    · rintro o rfl m hm p hp
      exact comparable_scope ((within_component hs hm).below.trans (below_stands m)) (.refl t)
        hp ht
  refine .look ?_
  dsimp only [Query.bind]
  -- unions first, those of the source before those of the target
  split
  · next members h =>
    exact .every fun m hm => .related (left m (by rw [alternatives h]; exact hm))
  · next members _ h =>
    have member : ∀ m ∈ members, v.Poses s t s m := fun m hm =>
      right m (by rw [alternatives h]; exact hm)
    split
    · exact positive_intersectionToUnion member (asIntersection rfl)
    · exact positive_unionTarget member
  · split
    · exact .ofBool _
    · exact .every fun m hm => .related (right m hm)
    · exact asIntersection rfl
    · exact positive_brands hs ht
    · exact positive_brands hs ht
    · split
      · exact positive_byRule hs ht
      · exact .fails

/-- **THE STEP ASKS ABOUT PARTS, AND MORE PARTS CAN ONLY HELP.** -/
theorem positive_step (flags : Flags) (s t : Handle) :
    (step flags s t : Query ρ Answer).Positive v (v.scope s t) := by
  refine .look ?_
  dsimp only [Query.bind]
  split
  · next source target hs ht =>
    split
    · next lazy =>
      -- what a lazy node stands for is a part of it
      refine .resolve (.inl (.refl s)) (.resolve (.inr (.refl t)) (.related ?_))
      rcases Bool.or_eq_true_iff.1 lazy with h | h
      · cases source with
        | lazy d => exact .left (within_stands (Store.lazyId?_of_node hs)) (below_stands t)
        | _ => cases h
      · cases target with
        | lazy d => exact .right (below_stands s) (within_stands (Store.lazyId?_of_node ht))
        | _ => cases h
    · exact positive_nodes hs ht
  · exact .fails

end

end Assignability.Query
