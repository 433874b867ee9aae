/-
  Assignability.Proofs.Relation.FiniteRecord
  ──────────────────────────────────────────
  **RECORDS OVER A LIST OF NAMES, AND THE OBJECTS THEY STAND FOR.**

  A record whose key type lists strings holds one value under each of
  them, as the object with exactly these required fields does.  The rules
  for records never build this object; each of them looks for the names
  in its own way.  Where the two agree, and where not:

    • as targets, for objects without an index signature and for records
      over a finite key type that has names alone
      (`related_finiteRecord_target`) — records whose keys are numbers, or
      of both sorts, are kept apart from those whose keys are strings, and
      records that guarantee no field fit a record over their keys all the
      same (`not_related_iff_of_openKeys`),
    • as sources, against the declared fields of every object, but not
      always against an index signature (`related_finiteRecord_source`):
      a record is compared with it where one key type fits the other, an
      object where it admits a name.
-/
import Assignability.Proofs.Relation.KeySet
import Assignability.Proofs.Store.Shapes

namespace Assignability

variable {ρ : Type}

/-! ## §1. The object of a list of names -/

namespace Layout

variable {names : List Atom} {value : Handle} {f : Field}

/-- The object with exactly the required fields of these names, all of one type. -/
def required (names : List Atom) (value : Handle) : Layout :=
  .of (names.map fun name => { name, type := value }) none

/-- The fields are one for each name, required and of the one value type. -/
theorem mem_required :
    f ∈ (required names value).fields ↔ ∃ name ∈ names, f = { name, type := value } := by
  constructor
  · intro hf
    obtain ⟨name, hname, rfl⟩ := List.mem_map.1 (Field.mem_of_mem_normalize hf)
    exact ⟨name, hname, rfl⟩
  · rintro ⟨name, hname, rfl⟩
    let declared := names.map fun name => ({ name, type := value } : Field)
    have among : ({ name, type := value } : Field) ∈ declared.filter (·.name == name) :=
      List.mem_filter.2 ⟨List.mem_map_of_mem hname, beq_self_eq_true name⟩
    cases last : (declared.filter (·.name == name)).getLast? with
    | none =>
      rw [List.getLast?_eq_none_iff.1 last] at among
      cases among
    | some g =>
      -- all declarations of a name are the same
      obtain ⟨hg, named⟩ := List.mem_filter.1 (List.mem_of_getLast? last)
      obtain ⟨name', -, rfl⟩ := List.mem_map.1 hg
      obtain rfl : name' = name := beq_iff_eq.1 named
      exact Field.mem_normalize.2 last

/-- A field is found where its name is listed. -/
theorem field?_required (name : Atom) : (required names value).field? name
    = if name ∈ names then some { name, type := value } else none := by
  split
  · next h => exact (isNormal_of _ _).field?_name (mem_required.2 ⟨name, h, rfl⟩)
  · next h =>
    cases hf : (required names value).field? name with
    | none => rfl
    | some g =>
      obtain ⟨hg, rfl⟩ := of_field? hf
      obtain ⟨name, hname, rfl⟩ := mem_required.1 hg
      exact absurd hname h

/-- All fields are required, and there is no index signature. -/
theorem isPlain_required : (required names value).isPlain = true := by
  refine Bool.and_eq_true_iff.2 ⟨rfl, List.all_eq_true.2 fun f hf => ?_⟩
  obtain ⟨name, -, rfl⟩ := mem_required.1 hf
  rfl

end Layout

namespace Store

variable {σ : Store ρ} {names : List Atom} {key value record object h : Handle}

/-- A record over a list of names, and the object with exactly the fields of these names. -/
structure RecordAsObject (σ : Store ρ) (names : List Atom) (key value record object : Handle) :
    Prop where
  record : σ.node? record = some (.record key value)
  object : ∃ p, σ.node? object = some (.object p) ∧ σ.object p = .required names value
  listed : σ.ListsNames key names
  nonempty : names ≠ []
  lazyFree : σ.LazyFree value

/-- A literal has no lazies. -/
theorem lazyFree_of_literal {value : Literal} (hn : σ.node? h = some (.literal value)) :
    σ.LazyFree h := by
  refine .of_components hn rfl fun g hg => ?_
  cases hg

/-- A key type that lists names has no lazies. -/
theorem ListsNames.lazyFree (listed : σ.ListsNames key names) : σ.LazyFree key := by
  obtain ⟨literals, form, each⟩ := listed
  have literal : ∀ l ∈ literals, σ.LazyFree l := by
    intro l hl
    obtain ⟨name, -, hn⟩ := (Matched.of_forall₂ each).left l hl
    exact lazyFree_of_literal hn
  rcases form with rfl | ⟨node, hn, ha⟩
  · exact literal key (List.mem_singleton_self key)
  · have parts : σ.components node = literals ∧ node.isLazy = false := by
      cases node with
      | union l | enumeration l => exact ⟨Option.some.inj ha, rfl⟩
      | _ => cases ha
    refine .of_components hn parts.2 fun g hg => ?_
    rw [parts.1] at hg
    exact literal g hg

namespace RecordAsObject

variable (pair : σ.RecordAsObject names key value record object)
include pair

/-- The record has no lazies where its value has none. -/
theorem record_lazyFree : σ.LazyFree record := by
  refine .of_components pair.record rfl fun g hg => ?_
  rcases List.mem_cons.1 hg with rfl | hg
  · exact pair.listed.lazyFree
  · obtain rfl := List.mem_singleton.1 hg
    exact pair.lazyFree

/-- The object has no lazies where its value has none. -/
theorem object_lazyFree : σ.LazyFree object := by
  obtain ⟨p, hp, shape⟩ := pair.object
  refine .of_components hp rfl fun g hg => ?_
  change g ∈ (σ.object p).parts at hg
  rw [shape] at hg
  rcases List.mem_append.1 hg with hg | hg
  · obtain ⟨f, hf, rfl⟩ := List.mem_map.1 hg
    obtain ⟨name, -, rfl⟩ := Layout.mem_required.1 hf
    exact pair.lazyFree
  · cases hg

end RecordAsObject

end Store

/-! ## §2. What the rules for records come to -/

/-- Whether a node is an object or a record. -/
def Node.isKeyed : Node → Bool
  | .object _ | .record _ _ => true
  | _ => false

namespace View

variable {v : View ρ} {s t key value k x : Handle} {source target : Node} {names : List Atom}
  {keys : List (Key × Handle)} {o p : ObjectId}

/-- Objects and records fit themselves, and others by the rule for their constructors. -/
theorem fits_iff_rule {rule : Rule} (hs : v.store.node? s = some source)
    (ht : v.store.node? t = some target) (ps : source.isKeyed = true) (pt : target.isKeyed = true)
    (of : Rule.of? source.kind target.kind = some rule) :
    v.Fits s t ↔ s = t ∨
      ((Query.byRule v.flags rule source target).eval v v.keysFit v.fits).isTrue = true := by
  -- records and objects are neither leaves nor lazy, so the table decides
  have notLeaf : ∀ {n : Node}, n.isKeyed = true → n.kind ≠ .intrinsic ∧ n.kind ≠ .literal ∧
      n.isLazy = false := by
    intro n h
    cases n with
    | object | record => exact ⟨nofun, nofun, rfl⟩
    | _ => cases h
  by_cases apart : s = t
  · exact iff_of_true (apart ▸ .refl s) (.inl apart)
  · have atOnce := atOnce?_eq_none hs (notLeaf ps).1 (notLeaf ps).2.1 ht (notLeaf pt).1 apart
    have rule : (Query.nodes v.flags s t source target).eval v v.keysFit v.fits
        = (Query.byRule v.flags rule source target).eval v v.keysFit v.fits := by
      cases source with
      | object | record =>
        cases target with
        | object | record =>
          obtain rfl := Option.some.inj of
          rfl
        | _ => cases pt
      | _ => cases ps
    rw [or_iff_right apart, fits_iff_nodes atOnce hs ht (notLeaf ps).2.2 (notLeaf pt).2.2, rule]

/-- A key type that has names alone admits its keys. -/
theorem admits_iff_of_names (hk : v.keys? key = some keys)
    (each : ∀ k ∈ keys, ∃ text, k.1 = .name text) (name : Atom) :
    v.admits key name = true ↔ ∃ k ∈ keys, k.1 = .name name := by
  rw [admits_eq_of_keys? hk, List.any_eq_true]
  refine exists_congr fun k => and_congr_right fun hk => ?_
  obtain ⟨text, named⟩ := each k hk
  rw [named]
  show (text == name) = true ↔ _
  rw [beq_iff_eq, Key.name.injEq]

/-- A list of strings has its names as keys, and admits no others. -/
theorem keys_of_listsNames (listed : v.store.ListsNames key names) : ∃ keys,
    v.keys? key = some keys ∧ (∀ k ∈ keys, ∃ text, k.1 = .name text) ∧
      ∀ name, (∃ k ∈ keys, k.1 = .name name) ↔ name ∈ names := by
  obtain ⟨keys, hk, named⟩ := keys?_of_listsNames listed
  refine ⟨keys, hk, fun k hk => ?_, fun name => ?_⟩
  · have among : k.1 ∈ names.map Key.name := named ▸ List.mem_map_of_mem hk
    obtain ⟨text, -, same⟩ := List.mem_map.1 among
    exact ⟨text, same.symm⟩
  · rw [← List.mem_map, named, List.mem_map]
    simp only [Key.name.injEq, exists_eq_right]

/-- A key type that lists names admits just these. -/
theorem admits_iff_of_listsNames (listed : v.store.ListsNames key names) (name : Atom) :
    v.admits key name = true ↔ name ∈ names := by
  obtain ⟨keys, hk, each, among⟩ := keys_of_listsNames listed
  rw [admits_iff_of_names hk each, among]

/-- A declared field of the target is fit by a record: it may be left out or is one of finitely many
keys, and has the value under it where it is a key. -/
theorem isTrue_eval_fieldOfRecord (f : Field) :
    ((Query.fieldOfRecord key value (v.keys? key) f).eval v v.keysFit v.fits).isTrue = true
      ↔ (f.optional = true ∨ v.admits key f.name = true ∧ (v.keys? key).isSome = true) ∧
        (v.admits key f.name = true → v.Fits value f.type) := by
  have carries : (Query.carries key (v.keys? key) f.name).eval v v.keysFit v.fits
      = v.admits key f.name := by
    unfold Query.carries
    cases hk : v.keys? key with
    | none => exact eval_admits _ _ key f.name
    | some keys => exact (admits_eq_of_keys? hk f.name).symm
  unfold Query.fieldOfRecord
  rw [Query.bind_eq, Query.eval_bind, carries]
  cases ho : f.optional <;> cases ha : v.admits key f.name <;>
    cases hk : (v.keys? key).isSome <;> simp

/-- When a record fits an object. -/
theorem fits_record_object_iff (hs : v.store.node? s = some (.record key value))
    (ht : v.store.node? t = some (.object p)) (fs : v.store.LazyFree s) (ft : v.store.LazyFree t) :
    v.Fits s t ↔ (∀ f ∈ (v.store.object p).fields,
        (f.optional = true ∨ v.admits key f.name = true ∧ (v.keys? key).isSome = true) ∧
          (v.admits key f.name = true → v.Fits value f.type)) ∧
      ∀ j, (v.store.object p).index = some j → v.Fits key j.key ∨ v.Fits j.key key →
        v.Fits value j.value := by
  have apart : s ≠ t := by
    rintro rfl
    cases hs.symm.trans ht
  have rule : (Query.byRule v.flags .recordToObject (.record key value) (.object p)).eval v
      v.keysFit v.fits = (Query.recordToObject key value (v.store.object p)).eval v v.keysFit v.fits :=
    rfl
  rw [fits_iff_rule hs ht rfl rfl rfl, or_iff_right apart, rule]
  unfold Query.recordToObject
  rw [Query.bind_eq, Query.eval_bind, eval_keys?, Query.isTrue_eval_andThen, Bool.and_eq_true,
    Query.isTrue_eval_every, List.all_eq_true]
  simp only [isTrue_eval_fieldOfRecord]
  refine and_congr_right fun _ => ?_
  cases hj : (v.store.object p).index with
  | none => exact iff_of_true rfl nofun
  | some j =>
    -- the two key types are compared for overlap, at the levels of key questions
    have finite : v.IsFinite key ∧ v.IsFinite j.key := by
      constructor
      · exact isFinite_of_lazyFree (fs.component hs List.mem_cons_self)
      · exact isFinite_of_lazyFree (ft.component ht (Query.key_mem_parts hj))
    have keys : ∀ i, some (⟨key, value⟩ : IndexSignature) = some i →
        v.keysFit i.key j.key = v.fits i.key j.key ∧ v.keysFit j.key i.key = v.fits j.key i.key := by
      rintro i hi
      obtain rfl := Option.some.inj hi
      exact ⟨keysFit_eq_fits_of_isFinite finite.1 finite.2,
        keysFit_eq_fits_of_isFinite finite.2 finite.1⟩
    dsimp only
    rw [isTrue_eval_indexUnder keys]
    simp

/-! ## §3. Finite records as targets -/

/-- A layout has a name as a key where it always has such a field. -/
theorem hasKey_name_iff (σ : Store ρ) (shape : Layout) (name : Atom) :
    Query.hasKey σ shape (.name name) = true
      ↔ ∃ g, shape.field? name = some g ∧ g.isAlwaysPresent = true := by
  have found : (Key.name name).field? σ shape = shape.field? name := rfl
  unfold Query.hasKey
  rw [found]
  cases shape.field? name <;> simp

/-- When an object without an index signature fits a record over a list of names. -/
theorem fits_object_record_iff (hs : v.store.node? s = some (.object o))
    (ht : v.store.node? t = some (.record key value)) (listed : v.store.ListsNames key names)
    (normal : (v.store.object o).IsNormal) (closed : (v.store.object o).index = none) :
    v.Fits s t ↔ ∀ name ∈ names, ∃ g, (v.store.object o).field? name = some g ∧
      g.isAlwaysPresent = true ∧ v.Fits g.type value := by
  have apart : s ≠ t := by
    rintro rfl
    cases hs.symm.trans ht
  have rule : (Query.byRule v.flags .objectToRecord (.object o) (.record key value)).eval v
      v.keysFit v.fits = (Query.objectToRecord (v.store.object o) key value).eval v v.keysFit v.fits :=
    rfl
  obtain ⟨keys, hk, each, among⟩ := keys_of_listsNames listed
  have present : (keys.all fun k => Query.hasKey v.store (v.store.object o) k.1) = true
      ↔ ∀ name ∈ names, ∃ g, (v.store.object o).field? name = some g ∧ g.isAlwaysPresent = true := by
    rw [List.all_eq_true]
    constructor
    · intro h name hname
      obtain ⟨k, hk, named⟩ := (among name).2 hname
      exact (hasKey_name_iff v.store _ name).1 (named ▸ h k hk)
    · intro h k hk
      obtain ⟨text, named⟩ := each k hk
      rw [named, hasKey_name_iff]
      exact h text ((among text).1 ⟨k, hk, named⟩)
  have under : ((Query.objectUnder ⟨key, value⟩ (v.store.object o)).eval v v.keysFit v.fits).isTrue
      = true ↔ ∀ f ∈ (v.store.object o).fields, f.name ∈ names → v.Fits f.type value := by
    rw [isTrue_eval_objectUnder (by rw [closed]; exact nofun), closed,
      and_iff_left (fun _ h => nomatch h)]
    simp only [admits_iff_of_listsNames listed]
  rw [fits_iff_rule hs ht rfl rfl rfl, or_iff_right apart, rule]
  unfold Query.objectToRecord
  rw [Query.bind_eq, Query.eval_bind, eval_keys?, hk, Query.bind_eq, Query.eval_bind, Query.eval_store,
    Option.getD_some]
  constructor
  · intro h name hname
    split at h
    · next all =>
      obtain ⟨g, hg, always⟩ := present.1 all name hname
      obtain ⟨among, rfl⟩ := Layout.of_field? hg
      exact ⟨g, hg, always, under.1 h g among hname⟩
    · cases h
  · intro h
    rw [if_pos (present.2 fun name hname => (h name hname).imp fun g hg => ⟨hg.1, hg.2.1⟩)]
    refine under.2 fun f hf hname => ?_
    -- a name is declared once, so the field of that name is this one
    obtain ⟨g, hg, -, fits⟩ := h f.name hname
    obtain rfl := Option.some.inj ((normal.field?_name hf).symm.trans hg)
    exact fits

/-- When an object fits the object of a list of names. -/
theorem fits_object_required_iff (hs : v.store.node? s = some (.object o))
    (ht : v.store.node? t = some (.object p)) (shape : v.store.object p = .required names value) :
    v.Fits s t ↔ ∀ name ∈ names, ∃ g, (v.store.object o).field? name = some g ∧
      g.isAlwaysPresent = true ∧ v.Fits g.type value := by
  have rule : (Query.byRule v.flags .object (.object o) (.object p)).eval v v.keysFit v.fits
      = (Query.objects (v.store.object o) (v.store.object p)).eval v v.keysFit v.fits := rfl
  rw [fits_iff_rule hs ht rfl rfl rfl, rule, shape,
    isTrue_eval_objects_iff Layout.isPlain_required]
  have named : (∀ f ∈ (Layout.required names value).fields, ∃ g,
      (v.store.object o).field? f.name = some g ∧ g.isAlwaysPresent = true ∧ v.Fits g.type f.type)
        ↔ ∀ name ∈ names, ∃ g, (v.store.object o).field? name = some g ∧
          g.isAlwaysPresent = true ∧ v.Fits g.type value := by
    simp only [Layout.mem_required]
    constructor
    · exact fun h name hname => h _ ⟨name, hname, rfl⟩
    · rintro h f ⟨name, hname, rfl⟩
      exact h name hname
  rw [named, or_iff_right_iff_imp]
  -- the object itself has the fields, so the case of one handle is no exception
  rintro rfl name hname
  obtain rfl := Node.object.inj (Option.some.inj (hs.symm.trans ht))
  rw [shape, Layout.field?_required, if_pos hname]
  exact ⟨_, rfl, rfl, .refl value⟩

/-- A finite key type takes the literals of other keys, all names, where it has these names. -/
theorem forall_fits_iff_of_names {others : List (Key × Handle)} (ho : v.keys? key = some others)
    (each : ∀ c ∈ others, ∃ text, c.1 = .name text) (hk : v.keys? k = some keys) :
    (∀ c ∈ others, v.Fits c.2 k)
      ↔ ∀ name, (∃ c ∈ others, c.1 = .name name) → ∃ c ∈ keys, c.1 = .name name := by
  constructor
  · rintro h name ⟨c, hc, named⟩
    exact (fits_iff_mem_keys? ((node?_of_mem_keys? ho hc name).1 named) hk).1 (h c hc)
  · intro h c hc
    obtain ⟨text, named⟩ := each c hc
    exact (fits_iff_mem_keys? ((node?_of_mem_keys? ho hc text).1 named) hk).2
      (h text ⟨c, hc, named⟩)

/-- What the rule for records asks of the source's key type, where the target has a list of names:
it goes with strings, and takes the literal of each name. -/
def KeysTaken (v : View ρ) (k key : Handle) : Prop :=
  (∃ sort, v.sort? k = some sort ∧ sort.isCompatible .string = true) ∧
    ∀ listed, v.keys? key = some listed → ∀ c ∈ listed, v.Fits c.2 k

/-- A finite key type is so where all its keys are names, among them those of the list. -/
theorem keysTaken_iff_of_keys? (listed : v.store.ListsNames key names) (hk : v.keys? k = some keys) :
    v.KeysTaken k key ↔ (∀ c ∈ keys, ∃ text, c.1 = .name text) ∧
      ∀ name ∈ names, ∃ c ∈ keys, c.1 = .name name := by
  obtain ⟨others, ho, each, among⟩ := keys_of_listsNames listed
  obtain ⟨sort, hs, compatible⟩ := isCompatible_string_iff hk
  have covered := forall_fits_iff_of_names ho each hk
  simp only [among] at covered
  unfold KeysTaken
  rw [← compatible, ← covered, hs, ho]
  simp

/-- A list of names takes its own. -/
theorem keysTaken_self (listed : v.store.ListsNames key names) : v.KeysTaken key key := by
  obtain ⟨keys, hk, each, among⟩ := keys_of_listsNames listed
  exact (keysTaken_iff_of_keys? listed hk).2 ⟨each, fun name => (among name).2⟩

/-- When a record fits a record over a list of names. -/
theorem fits_record_record_iff (hs : v.store.node? s = some (.record k x))
    (ht : v.store.node? t = some (.record key value)) (listed : v.store.ListsNames key names)
    (nonempty : names ≠ []) : v.Fits s t ↔ v.KeysTaken k key ∧ v.Fits x value := by
  obtain ⟨others, ho, each, among⟩ := keys_of_listsNames listed
  have inhabited : others ≠ [] := by
    rintro rfl
    obtain ⟨name, hname⟩ := List.exists_mem_of_ne_nil names nonempty
    obtain ⟨c, hc, -⟩ := (among name).2 hname
    cases hc
  have rule : ((Query.byRule v.flags .record (.record k x) (.record key value)).eval v v.keysFit
      v.fits).isTrue = true ↔ v.KeysTaken k key ∧ v.Fits x value := by
    show ((Query.records .covariant k x key value).eval v v.keysFit v.fits).isTrue = true ↔ _
    unfold Query.records KeysTaken
    rw [Query.bind_eq, Query.eval_bind, eval_sort?, Query.bind_eq, Query.eval_bind, eval_sort?,
      sort?_of_names ho inhabited each, ho]
    cases hsort : v.sort? k with
    | none =>
      refine iff_of_false ?_ ?_
      · intro h
        cases h
      · rintro ⟨⟨⟨sort, h, -⟩, -⟩, -⟩
        cases h
    | some sort =>
      dsimp only
      -- keys of sorts that do not go together are not compared at all
      split
      · next same =>
        rw [Query.bind_eq, Query.eval_bind, eval_keys?, ho, Query.isTrue_eval_andThen,
          Bool.and_eq_true, Query.isTrue_eval_every, List.all_eq_true]
        simp [Query.relate, same]
      · next apart =>
        refine iff_of_false ?_ ?_
        · intro h
          cases h
        · rintro ⟨⟨⟨sort', h, same⟩, -⟩, -⟩
          obtain rfl := Option.some.inj h
          exact apart same
  rw [fits_iff_rule hs ht rfl rfl rfl, rule, or_iff_right_iff_imp]
  rintro rfl
  obtain ⟨rfl, rfl⟩ := Node.record.inj (Option.some.inj (hs.symm.trans ht))
  exact ⟨keysTaken_self listed, .refl x⟩

/-- A record whose keys are not listed guarantees no field, so it does not fit the object of a list of
names. -/
theorem not_fits_required_of_open (hs : v.store.node? s = some (.record k x))
    (ht : v.store.node? t = some (.object p)) (fs : v.store.LazyFree s) (ft : v.store.LazyFree t)
    (shape : v.store.object p = .required names value) (nonempty : names ≠ [])
    (hk : v.keys? k = none) : ¬ v.Fits s t := by
  rw [fits_record_object_iff hs ht fs ft, shape, hk]
  rintro ⟨fields, -⟩
  obtain ⟨name, hname⟩ := List.exists_mem_of_ne_nil names nonempty
  obtain ⟨guaranteed, -⟩ := fields _ (Layout.mem_required.2 ⟨name, hname, rfl⟩)
  exact nomatch (guaranteed.resolve_left nofun).2

/-- When a record over a finite key type fits the object of a list of names. -/
theorem fits_record_required_iff (hs : v.store.node? s = some (.record k x))
    (ht : v.store.node? t = some (.object p)) (fs : v.store.LazyFree s) (ft : v.store.LazyFree t)
    (shape : v.store.object p = .required names value) (nonempty : names ≠ [])
    (hk : v.keys? k = some keys) :
    v.Fits s t ↔ (∀ name ∈ names, v.admits k name = true) ∧ v.Fits x value := by
  rw [fits_record_object_iff hs ht fs ft, shape, hk]
  constructor
  · rintro ⟨fields, -⟩
    -- the value is compared under each name, so that there must be one
    have each : ∀ name ∈ names, v.admits k name = true ∧ v.Fits x value := by
      intro name hname
      obtain ⟨there, fits⟩ := fields _ (Layout.mem_required.2 ⟨name, hname, rfl⟩)
      have admitted := (there.resolve_left nofun).1
      exact ⟨admitted, fits admitted⟩
    obtain ⟨name, hname⟩ := List.exists_mem_of_ne_nil names nonempty
    exact ⟨fun name hname => (each name hname).1, (each name hname).2⟩
  · rintro ⟨admitted, fits⟩
    refine ⟨fun f hf => ?_, nofun⟩
    obtain ⟨name, hname, rfl⟩ := Layout.mem_required.1 hf
    exact ⟨.inr ⟨admitted name hname, rfl⟩, fun _ => fits⟩

/-! ## §4. Finite records as sources -/

/-- One value under a list of names fits the declared fields of a target: those that are named have
this value, and the others may be left out. -/
def FieldsTaken (v : View ρ) (names : List Atom) (value : Handle) (target : Layout) : Prop :=
  ∀ f ∈ target.fields, if f.name ∈ names then v.Fits value f.type else f.optional = true

/-- When a record over a list of names fits an object. -/
theorem fits_finiteRecord_iff (hs : v.store.node? s = some (.record key value))
    (ht : v.store.node? t = some (.object p)) (fs : v.store.LazyFree s) (ft : v.store.LazyFree t)
    (listed : v.store.ListsNames key names) :
    v.Fits s t ↔ v.FieldsTaken names value (v.store.object p) ∧
      ∀ j, (v.store.object p).index = some j → v.Fits key j.key ∨ v.Fits j.key key →
        v.Fits value j.value := by
  obtain ⟨keys, hk, -⟩ := keys_of_listsNames listed
  rw [fits_record_object_iff hs ht fs ft, hk]
  refine and_congr_left fun _ => forall₂_congr fun f _ => ?_
  rw [admits_iff_of_listsNames listed]
  split
  · next h => simp [h]
  · next h => simp [h]

/-- The declared fields of the object of a list of names: those of a target are taken from it, and
all of its own fit an index signature of the target that admits their names. -/
theorem fieldsFit_required_iff {layout : Layout} :
    v.FieldsFit (.required names value) layout ↔ v.FieldsTaken names value layout ∧
      ∀ j, layout.index = some j → (∃ name ∈ names, v.admits j.key name = true) →
        v.Fits value j.value := by
  constructor
  · intro h
    constructor
    · intro f hf
      have found : (Layout.required names value).field? f.name = _ := Layout.field?_required f.name
      split
      · next named =>
        rw [if_pos named] at found
        exact (h.declared f hf _ found).2
      · next other =>
        rw [if_neg other] at found
        exact (h.undeclared f hf found).1
    · rintro j hj ⟨name, hname, admitted⟩
      exact h.under j hj _ (Layout.mem_required.2 ⟨name, hname, rfl⟩) admitted
  · rintro ⟨taken, under⟩
    constructor
    · intro f hf g hg
      have fits := taken f hf
      rw [Layout.field?_required] at hg
      split at hg
      · next named =>
        obtain rfl := Option.some.inj hg
        rw [if_pos named] at fits
        exact ⟨.inr rfl, fits⟩
      · cases hg
    -- a field that no name requires is missing, and the object has no index signature
    · intro f hf missing
      have may := taken f hf
      rw [Layout.field?_required] at missing
      split at missing
      · cases missing
      · next other =>
        rw [if_neg other] at may
        exact ⟨may, nofun⟩
    · intro j hj f hf admitted
      obtain ⟨name, hname, rfl⟩ := Layout.mem_required.1 hf
      exact under j hj ⟨name, hname, admitted⟩

/-- When the object of a list of names fits an object. -/
theorem fits_required_iff (hs : v.store.node? s = some (.object o))
    (ht : v.store.node? t = some (.object p)) (fs : v.store.LazyFree s) (ft : v.store.LazyFree t)
    (shape : v.store.object o = .required names value) :
    v.Fits s t ↔ v.FieldsTaken names value (v.store.object p) ∧
      ∀ j, (v.store.object p).index = some j → (∃ name ∈ names, v.admits j.key name = true) →
        v.Fits value j.value := by
  -- there is no index signature on the left to compare
  have closed : v.IndexesFit (v.store.object o) (v.store.object p) := by
    intro i j hi
    rw [shape] at hi
    cases hi
  rw [fits_objects_iff hs ht fs ft, and_iff_left closed, shape, fieldsFit_required_iff,
    or_iff_right_iff_imp]
  rintro rfl
  obtain rfl := Node.object.inj (Option.some.inj (hs.symm.trans ht))
  rw [shape]
  refine ⟨fun f hf => ?_, nofun⟩
  obtain ⟨name, hname, rfl⟩ := Layout.mem_required.1 hf
  exact (if_pos hname).mpr (.refl value)

end View

/-! ## §5. What the checker finds -/

section

variable (run : Runner ρ) (policy : Policy) (σ : Store ρ) (names : List Atom)
  (key value record object : Handle) (pair : σ.RecordAsObject names key value record object)
include pair

/-- **A FINITE RECORD TARGET STANDS FOR ITS FIELDS.**  An object without an index signature is found to
fit a record over a list of names exactly where it is found to fit the object of these names.  A record
over a finite key type is found to fit the record exactly where it is found to fit the object and all
its keys are names: numbers are keys of another sort, also those whose text is the name.

A record over any other key type guarantees no field, and is not found to fit the object.  But it is
found to fit the record where its key type takes the names: there the keys that it has are not asked
for, only those that it may have. -/
theorem related_finiteRecord_target (shapes : σ.ShapesNormal) (s : Handle) (fs : σ.LazyFree s)
    (withinRecord : (Store.relate run policy .assignable s record σ).1.exceeded = false)
    (withinObject : (Store.relate run policy .assignable s object σ).1.exceeded = false) :
    (∀ o, σ.node? s = some (.object o) → (σ.object o).index = none →
      ((Store.relate run policy .assignable s record σ).1.related = true
        ↔ (Store.relate run policy .assignable s object σ).1.related = true)) ∧
    (∀ k x keys, σ.node? s = some (.record k x) →
      (View.of run σ policy.flags).keys? k = some keys →
      ((Store.relate run policy .assignable s record σ).1.related = true
        ↔ (Store.relate run policy .assignable s object σ).1.related = true ∧
          ∀ c ∈ keys, ∃ name, c.1 = .name name)) ∧
    ∀ k x, σ.node? s = some (.record k x) → (View.of run σ policy.flags).keys? k = none →
      (Store.relate run policy .assignable s object σ).1.related = false ∧
      ((Store.relate run policy .assignable s record σ).1.related = true
        ↔ (View.of run σ policy.flags).KeysTaken k key ∧
          (View.of run σ policy.flags).Fits x value) := by
  let v := View.of run σ policy.flags
  obtain ⟨p, hp, shape⟩ := pair.object
  have asRecord := (relate_iff fs.atRest pair.record_lazyFree.atRest withinRecord).trans
    View.relates_assignable
  have asObject := (relate_iff fs.atRest pair.object_lazyFree.atRest withinObject).trans
    View.relates_assignable
  have fromRecord : ∀ {k x}, σ.node? s = some (.record k x) →
      (v.Fits s record ↔ v.KeysTaken k key ∧ v.Fits x value) := fun hs =>
    View.fits_record_record_iff (v := v) hs pair.record pair.listed pair.nonempty
  refine ⟨fun o hs closed => ?_, fun k x keys hs hk => ?_, fun k x hs hk => ⟨?_, ?_⟩⟩
  · have left : v.Fits s record ↔ _ :=
      View.fits_object_record_iff hs pair.record pair.listed (shapes.object o) closed
    have right : v.Fits s object ↔ _ := View.fits_object_required_iff hs hp shape
    rw [asRecord, asObject]
    exact left.trans right.symm
  · have right : v.Fits s object ↔ _ :=
      View.fits_record_required_iff hs hp fs pair.object_lazyFree shape pair.nonempty hk
    rw [asRecord, asObject, fromRecord hs, right, View.keysTaken_iff_of_keys? (v := v) pair.listed hk,
      and_assoc, and_comm]
    -- where all keys are names, a name is admitted where it is a key
    refine and_congr_left fun each => and_congr_left fun _ => forall₂_congr fun name _ => ?_
    exact (View.admits_iff_of_names hk each name).symm
  · rw [← Bool.not_eq_true, asObject]
    exact View.not_fits_required_of_open (v := v) hs hp fs pair.object_lazyFree shape pair.nonempty hk
  · rw [asRecord]
    exact fromRecord hs

/-- **A FINITE RECORD SOURCE STANDS FOR ITS FIELDS, EXCEPT AGAINST SOME INDEX SIGNATURES.**  A record
over a list of names and the object of these names are found to fit the declared fields of an object in
the same cases.  An index signature of the target bounds the record where one of the two key types fits
the other, and the object where it admits one of the names; where these come to the same, or there is
none, so do the findings. -/
theorem related_finiteRecord_source (t : Handle) (q : ObjectId) (ht : σ.node? t = some (.object q))
    (ft : σ.LazyFree t)
    (withinRecord : (Store.relate run policy .assignable record t σ).1.exceeded = false)
    (withinObject : (Store.relate run policy .assignable object t σ).1.exceeded = false) :
    let v := View.of run σ policy.flags
    ((Store.relate run policy .assignable record t σ).1.related = true
      ↔ v.FieldsTaken names value (σ.object q) ∧ ∀ j, (σ.object q).index = some j →
        v.Fits key j.key ∨ v.Fits j.key key → v.Fits value j.value) ∧
    ((Store.relate run policy .assignable object t σ).1.related = true
      ↔ v.FieldsTaken names value (σ.object q) ∧ ∀ j, (σ.object q).index = some j →
        (∃ name ∈ names, v.admits j.key name = true) → v.Fits value j.value) ∧
    ((∀ j, (σ.object q).index = some j →
      (v.Fits key j.key ∨ v.Fits j.key key ↔ ∃ name ∈ names, v.admits j.key name = true)) →
      ((Store.relate run policy .assignable record t σ).1.related = true
        ↔ (Store.relate run policy .assignable object t σ).1.related = true)) := by
  intro v
  obtain ⟨p, hp, shape⟩ := pair.object
  have asRecord := (relate_iff pair.record_lazyFree.atRest ft.atRest withinRecord).trans
    View.relates_assignable
  have asObject := (relate_iff pair.object_lazyFree.atRest ft.atRest withinObject).trans
    View.relates_assignable
  -- The record and the object differ in one thing: the record asks whether the key types overlap,
  -- the object whether one of its names is admitted.
  have left : v.Fits record t ↔ _ :=
    View.fits_finiteRecord_iff pair.record ht pair.record_lazyFree ft pair.listed
  have right : v.Fits object t ↔ _ :=
    View.fits_required_iff hp ht pair.object_lazyFree ft shape
  refine ⟨asRecord.trans left, asObject.trans right, fun same => ?_⟩
  rw [asRecord, asObject, left, right]
  refine and_congr_right fun _ => forall₂_congr fun j hj => ?_
  rw [same j hj]

end

/-- String records over two names, over a name and a number and over all strings, and what they are to
fit: a string record over the first name alone, and the object of this name. -/
def sortsOfKeys : Listing Handle where
  nodes := [.literal (.string ⟨64⟩), .literal (.string ⟨128⟩),
    .literal (.number ⟨0x3ff0000000000000⟩), .union ⟨0⟩, .union ⟨1⟩,
    .record ⟨16⟩ Intrinsic.string.handle, .record ⟨17⟩ Intrinsic.string.handle,
    .record ⟨13⟩ Intrinsic.string.handle, .object ⟨0⟩,
    .record Intrinsic.string.handle Intrinsic.string.handle]
  lists := [[⟨13⟩, ⟨14⟩], [⟨13⟩, ⟨15⟩]]
  objects := [{ fields := [{ name := ⟨64⟩, type := Intrinsic.string.handle }] }]

/-- The listed record and object are one the other's spelling. -/
theorem recordAsObject_sortsOfKeys : sortsOfKeys.store.RecordAsObject [⟨64⟩] ⟨13⟩
    Intrinsic.string.handle ⟨20⟩ ⟨21⟩ where
  record := by decide +kernel
  object := ⟨⟨0⟩, by decide +kernel, by decide +kernel⟩
  listed := ⟨[⟨13⟩], .inl rfl, .cons (by decide +kernel) .nil⟩
  nonempty := nofun
  lazyFree := ⟨1, by decide +kernel⟩

/-- The listed layouts are normal. -/
theorem shapesNormal_sortsOfKeys : sortsOfKeys.store.ShapesNormal := by
  apply Listing.shapesNormal
  intro s hs
  obtain rfl := List.mem_singleton.1 hs
  exact List.pairwise_singleton _ _

/-- The record over two names fits the record over the first as it fits the object. -/
theorem related_sortsOfKeys :
    (Store.relate pure {} .assignable ⟨18⟩ ⟨20⟩ sortsOfKeys.store).1.related = true := by
  have found : (Store.relate pure {} .assignable ⟨18⟩ ⟨20⟩ sortsOfKeys.store).1.exceeded = false ∧
      (Store.relate pure {} .assignable ⟨18⟩ ⟨21⟩ sortsOfKeys.store).1
        = ⟨.assignable, true, false⟩ := by
    simp only [relate_eq_finding]
    decide +kernel
  have keys : (View.of pure sortsOfKeys.store {}).keys? ⟨16⟩
      = some [(.name ⟨64⟩, ⟨13⟩), (.name ⟨128⟩, ⟨14⟩)] := by decide +kernel
  have stands := related_finiteRecord_target pure {} sortsOfKeys.store [⟨64⟩] ⟨13⟩
    Intrinsic.string.handle ⟨20⟩ ⟨21⟩ recordAsObject_sortsOfKeys shapesNormal_sortsOfKeys ⟨18⟩
    ⟨3, by decide +kernel⟩ found.1 (by rw [found.2])
  refine (stands.2.1 ⟨16⟩ Intrinsic.string.handle _ (by decide +kernel) keys).2
    ⟨by rw [found.2], fun c hc => ?_⟩
  rcases List.mem_cons.1 hc with rfl | hc
  · exact ⟨_, rfl⟩
  · obtain rfl := List.mem_singleton.1 hc
    exact ⟨_, rfl⟩

/-- Two records that are not found to fit the record over a name just where they fit the object of it.
The one over all strings fits the record alone: it need not have the field.  The one over the name and a
number fits the object alone: it has the field, but the other key is not a name. -/
theorem not_related_iff_of_openKeys :
    let σ := sortsOfKeys.store
    σ.RecordAsObject [⟨64⟩] ⟨13⟩ Intrinsic.string.handle ⟨20⟩ ⟨21⟩ ∧
    ((Store.relate pure {} .assignable ⟨22⟩ ⟨20⟩ σ).1 = ⟨.assignable, true, false⟩ ∧
      (Store.relate pure {} .assignable ⟨22⟩ ⟨21⟩ σ).1 = ⟨.assignable, false, false⟩) ∧
    (Store.relate pure {} .assignable ⟨19⟩ ⟨20⟩ σ).1 = ⟨.assignable, false, false⟩ ∧
      (Store.relate pure {} .assignable ⟨19⟩ ⟨21⟩ σ).1 = ⟨.assignable, true, false⟩ := by
  refine ⟨recordAsObject_sortsOfKeys, ?_⟩
  simp only [relate_eq_finding]
  decide +kernel

/-- A string record over two names, the object of these names, and an object that holds numbers under
two names, one of which is among the others. -/
def sharedName : Listing Handle where
  nodes := [.literal (.string ⟨64⟩), .literal (.string ⟨128⟩), .literal (.string ⟨192⟩),
    .union ⟨0⟩, .union ⟨1⟩, .record ⟨16⟩ Intrinsic.string.handle, .object ⟨0⟩, .object ⟨1⟩]
  lists := [[⟨13⟩, ⟨14⟩], [⟨14⟩, ⟨15⟩]]
  objects := [{ fields := [{ name := ⟨64⟩, type := Intrinsic.string.handle },
      { name := ⟨128⟩, type := Intrinsic.string.handle }] },
    { index := some ⟨⟨17⟩, Intrinsic.number.handle⟩ }]

/-- The listed record and object are one the other's spelling here as well. -/
theorem recordAsObject_sharedName : sharedName.store.RecordAsObject [⟨64⟩, ⟨128⟩] ⟨16⟩
    Intrinsic.string.handle ⟨18⟩ ⟨19⟩ where
  record := by decide +kernel
  object := ⟨⟨0⟩, by decide +kernel, by decide +kernel⟩
  listed := ⟨[⟨13⟩, ⟨14⟩], .inr ⟨.union ⟨0⟩, by decide +kernel, by decide +kernel⟩,
    .cons (by decide +kernel) (.cons (by decide +kernel) .nil)⟩
  nonempty := nofun
  lazyFree := ⟨1, by decide +kernel⟩

/-- The record is found to fit, the object is not: neither key type fits the other, though they share a
name. -/
theorem related_sharedName :
    (View.of pure sharedName.store {}).admits ⟨17⟩ ⟨128⟩ = true ∧
      ¬ (View.of pure sharedName.store {}).Fits ⟨16⟩ ⟨17⟩ ∧
      ¬ (View.of pure sharedName.store {}).Fits ⟨17⟩ ⟨16⟩ ∧
      (Store.relate pure {} .assignable ⟨18⟩ ⟨20⟩ sharedName.store).1.related = true ∧
      (Store.relate pure {} .assignable ⟨19⟩ ⟨20⟩ sharedName.store).1.related = false := by
  have found : (Store.relate pure {} .assignable ⟨18⟩ ⟨20⟩ sharedName.store).1
        = ⟨.assignable, true, false⟩ ∧
      (Store.relate pure {} .assignable ⟨19⟩ ⟨20⟩ sharedName.store).1
        = ⟨.assignable, false, false⟩ := by
    simp only [relate_eq_finding]
    decide +kernel
  have index : (sharedName.store.object ⟨1⟩).index = some ⟨⟨17⟩, Intrinsic.number.handle⟩ := by
    decide +kernel
  have stands := related_finiteRecord_source pure {} sharedName.store [⟨64⟩, ⟨128⟩] ⟨16⟩
    Intrinsic.string.handle ⟨18⟩ ⟨19⟩ recordAsObject_sharedName ⟨20⟩ ⟨1⟩ (by decide +kernel)
    ⟨3, by decide +kernel⟩ (by rw [found.1]) (by rw [found.2])
  have taken := stands.1.1 (by rw [found.1])
  -- the value does not fit, so the record passed only because the key types were found apart
  have apart : ¬ (View.of pure sharedName.store {}).Fits Intrinsic.string.handle
      Intrinsic.number.handle := by
    intro fits
    have related := stands.2.1.2 ⟨taken.1, fun j hj _ => by
      obtain rfl := Option.some.inj (index.symm.trans hj)
      exact fits⟩
    rw [found.2] at related
    cases related
  exact ⟨by decide +kernel, fun h => apart (taken.2 _ index (.inl h)),
    fun h => apart (taken.2 _ index (.inr h)), by rw [found.1], by rw [found.2]⟩

end Assignability
