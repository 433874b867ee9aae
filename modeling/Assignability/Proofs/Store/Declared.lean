/-
  Assignability.Proofs.Store.Declared
  ───────────────────────────────────
  **THE LAST DECLARATION OF A NAME COUNTS.**

  A name may be declared any number of times in a list of fields.  The
  shape that is stored for the list holds, in the order of the names, the
  last declaration of each; so two lists come to one handle exactly where
  they agree on the last declaration of every name.

  The normal form is reached by putting one field after the other in its
  place.  Turning the list round, sorting it by name and dropping what
  repeats the name before it comes to the same, as the sort is stable
  (`sifted_eq_normalize`).  And as the names are in order, a field may
  be looked for by halving (`Layout.IsNormal.bisect?_eq`).

  Main statement: `object_holds_last`.
-/
import Assignability.Proofs.Store.Interning
import Assignability.Proofs.Store.Shapes
import Mathlib.Data.List.Sort

namespace Assignability

variable {ρ : Type}

/-! ## §1. The last declaration of a name -/

namespace Field

variable {f g : Field} {fields others : List Field} {name : Atom}

/-- The last of the fields that are declared under a name. -/
def last? (fields : List Field) (name : Atom) : Option Field :=
  (fields.filter (·.name == name)).getLast?

theorem name_of_last? (h : last? fields name = some f) : f ∈ fields ∧ f.name = name := by
  obtain ⟨hf, named⟩ := List.mem_filter.1 (List.mem_of_getLast? h)
  exact ⟨hf, eq_of_beq named⟩

theorem last?_eq_none_iff : last? fields name = none ↔ ∀ f ∈ fields, f.name ≠ name := by
  unfold last?
  rw [List.getLast?_eq_none_iff, List.filter_eq_nil_iff]
  simp only [beq_iff_eq, ne_eq]

/-- What the normal form holds under a name is the last declaration of the name. -/
theorem field?_normalize (fields : List Field) (index : Option IndexSignature) (name : Atom) :
    (Layout.of fields index).field? name = last? fields name := by
  cases last : last? fields name with
  | some f =>
    obtain ⟨-, rfl⟩ := name_of_last? last
    exact (Layout.isNormal_of fields index).field?_name (mem_normalize.2 last)
  | none =>
    -- a field of the normal form was declared
    have apart := last?_eq_none_iff.1 last
    refine List.find?_eq_none.2 fun f hf => ?_
    simpa using apart f (mem_of_mem_normalize hf)

/-- Fields in the order of their names are told by what they are. -/
theorem eq_of_pairwise_name (sorted : fields.Pairwise (·.name < ·.name))
    (sorted' : others.Pairwise (·.name < ·.name)) (same : ∀ f, f ∈ fields ↔ f ∈ others) :
    fields = others := by
  have irrefl : Std.Irrefl fun f g : Field => f.name < g.name :=
    ⟨fun f => Nat.lt_irrefl f.name.number⟩
  have antisymm : Std.Antisymm fun f g : Field => f.name < g.name :=
    ⟨fun f g h h' => absurd (Nat.lt_trans h h') (Nat.lt_irrefl f.name.number)⟩
  exact sorted.eq_of_mem_iff sorted' same

/-- **THE NORMAL FORM SAYS WHAT WAS DECLARED LAST**, and nothing else. -/
theorem normalize_eq_iff :
    normalize fields = normalize others ↔ ∀ name, last? fields name = last? others name := by
  constructor
  · intro same name
    rw [← field?_normalize fields none, ← field?_normalize others none]
    show (Layout.mk (normalize fields) none).field? name = _
    rw [same]
    rfl
  · intro same
    refine eq_of_pairwise_name (pairwise_normalize fields) (pairwise_normalize others) fun f => ?_
    rw [mem_normalize, mem_normalize]
    show last? fields f.name = some f ↔ last? others f.name = some f
    rw [same]

/-! ## §2. Turned round, sorted and sifted -/

/-- Whether a field may stand before another. -/
def notAfter (f g : Field) : Bool := f.name.number ≤ g.name.number

/-- The declarations from the last to the first, sorted by name, without those that repeat the name
before them. -/
def sifted (fields : List Field) : List Field :=
  (fields.reverse.mergeSort notAfter).eraseRepsBy fun f g => f.name == g.name

theorem notAfter_trans (f g h : Field) (hfg : notAfter f g = true) (hgh : notAfter g h = true) :
    notAfter f h = true := by
  simp only [notAfter, decide_eq_true_eq] at *
  omega

theorem notAfter_total (f g : Field) : (notAfter f g || notAfter g f) = true := by
  simp only [notAfter, Bool.or_eq_true, decide_eq_true_eq]
  omega

/-- Sorting leaves the fields of one name in their order. -/
theorem filter_mergeSort (fields : List Field) (name : Atom) :
    (fields.mergeSort notAfter).filter (·.name == name) = fields.filter (·.name == name) := by
  let named := fields.filter (·.name == name)
  have inOrder : named.Pairwise fun f g => notAfter f g = true := by
    refine List.pairwise_of_forall_mem_list fun f hf g hg => ?_
    have hf : f.name = name := by simpa using (List.mem_filter.1 hf).2
    have hg : g.name = name := by simpa using (List.mem_filter.1 hg).2
    simp [notAfter, hf, hg]
  -- so they stand in the sorted list in their order, and there are no more of them
  have sublist : named.Sublist (fields.mergeSort notAfter) :=
    List.sublist_mergeSort notAfter_trans notAfter_total inOrder List.filter_sublist
  have within : named.Sublist ((fields.mergeSort notAfter).filter (·.name == name)) := by
    have filtered := sublist.filter (·.name == name)
    simpa only [named, List.filter_filter, Bool.and_self] using filtered
  have length := ((List.mergeSort_perm fields notAfter).filter (·.name == name)).length_eq
  exact (within.eq_of_length length.symm).symm

/-- Where the first two fields differ in name, the first is kept whatever comes after. -/
theorem eraseRepsBy_cons (other : f.name ≠ g.name) :
    (f :: g :: fields).eraseRepsBy (fun f g => f.name == g.name)
      = f :: (g :: fields).eraseRepsBy fun f g => f.name == g.name := by
  -- the loop collects in reverse, so what it has collected is put in front at the end
  have collects : ∀ (fields : List Field) (f : Field) (kept : List Field),
      List.eraseRepsBy.loop (fun f g => f.name == g.name) f fields kept
        = kept.reverse ++ List.eraseRepsBy.loop (fun f g => f.name == g.name) f fields [] := by
    intro fields
    induction fields with
    | nil => simp [List.eraseRepsBy.loop]
    | cons g fields ih =>
      intro f kept
      simp only [List.eraseRepsBy.loop]
      cases f.name == g.name with
      | true => exact ih f kept
      | false =>
        show List.eraseRepsBy.loop _ g fields (f :: kept) = _
        rw [ih g (f :: kept), ih g [f]]
        simp
  simp only [List.eraseRepsBy, List.eraseRepsBy.loop]
  rw [beq_false_of_ne other]
  exact collects fields g [f]

/-- Of fields sorted by name, the first of each name are left. -/
theorem eraseRepsBy_sorted (fields : List Field) : ∀ f : Field,
    (f :: fields).Pairwise (fun f g => notAfter f g = true) →
      let left := (f :: fields).eraseRepsBy fun f g => f.name == g.name
      left.Pairwise (·.name < ·.name) ∧
        ∀ g, g ∈ left ↔ (f :: fields).find? (·.name == g.name) = some g := by
  induction fields with
  | nil =>
    intro f _
    refine ⟨List.pairwise_singleton _ f, fun g => ?_⟩
    show g ∈ [f] ↔ _
    by_cases same : f.name = g.name
    · rw [List.find?_cons_of_pos (by simpa using same)]
      simp [eq_comm]
    · rw [List.find?_cons_of_neg (by simpa using same)]
      simp only [List.mem_singleton, List.find?_nil, reduceCtorEq, iff_false]
      rintro rfl
      exact same rfl
  | cons g fields ih =>
    intro f sorted
    obtain ⟨before, rest⟩ := List.pairwise_cons.1 sorted
    by_cases same : f.name = g.name
    · -- the second repeats the name, and is dropped
      have dropped : (f :: g :: fields).eraseRepsBy (fun f g => f.name == g.name)
          = (f :: fields).eraseRepsBy fun f g => f.name == g.name := by
        simp only [List.eraseRepsBy, List.eraseRepsBy.loop, same, beq_self_eq_true]
      obtain ⟨inOrder, kept⟩ := ih f (List.pairwise_cons.2
        ⟨fun h hh => before h (List.mem_cons_of_mem g hh), (List.pairwise_cons.1 rest).2⟩)
      rw [dropped]
      refine ⟨inOrder, fun h => (kept h).trans ?_⟩
      by_cases named : f.name = h.name
      · rw [List.find?_cons_of_pos (by simpa using named),
          List.find?_cons_of_pos (by simpa using named)]
      · rw [List.find?_cons_of_neg (by simpa using named),
          List.find?_cons_of_neg (by simpa using named),
          List.find?_cons_of_neg (by simpa [← same] using named)]
    · -- the first is the only one of its name
      obtain ⟨inOrder, kept⟩ := ih g rest
      have first : ∀ h ∈ g :: fields, f.name < h.name := by
        intro h hh
        have notBefore : g.name.number ≤ h.name.number := by
          rcases List.mem_cons.1 hh with rfl | hh
          · exact Nat.le_refl _
          · simpa [notAfter] using (List.pairwise_cons.1 rest).1 h hh
        have notSame : f.name.number ≠ g.name.number := fun h => same (congrArg Atom.mk h)
        have notAfterIt : f.name.number ≤ g.name.number := by
          simpa [notAfter] using before g List.mem_cons_self
        show f.name.number < h.name.number
        omega
      have among : ∀ h ∈ (g :: fields).eraseRepsBy (fun f g => f.name == g.name), h ∈ g :: fields :=
        fun h hh => List.mem_of_find?_eq_some ((kept h).1 hh)
      show ((f :: g :: fields).eraseRepsBy fun f g => f.name == g.name).Pairwise _ ∧ ∀ h, h ∈ _ ↔ _
      rw [eraseRepsBy_cons same]
      refine ⟨List.pairwise_cons.2 ⟨fun h hh => first h (among h hh), inOrder⟩, fun h => ?_⟩
      rw [List.mem_cons, kept h]
      by_cases named : f.name = h.name
      · have whole : (f :: g :: fields).find? (·.name == h.name) = some f :=
          List.find?_cons_of_pos (by simpa using named)
        rw [whole, Option.some.injEq]
        refine ⟨fun hh => hh.elim Eq.symm fun hh => ?_, fun hh => .inl hh.symm⟩
        -- those further on have other names
        have later := first h (List.mem_of_find?_eq_some hh)
        rw [named] at later
        exact absurd later (Nat.lt_irrefl _)
      · have whole : (f :: g :: fields).find? (·.name == h.name)
            = (g :: fields).find? (·.name == h.name) :=
          List.find?_cons_of_neg (by simpa using named)
        rw [whole]
        exact or_iff_right fun hh => named (by rw [hh])

/-- **THREE PASSES COME TO THE NORMAL FORM.** -/
theorem sifted_eq_normalize (fields : List Field) : sifted fields = normalize fields := by
  have sorted := List.pairwise_mergeSort notAfter_trans notAfter_total fields.reverse
  -- the first of a name in the sorted list is the last that was declared
  have first : ∀ name, (fields.reverse.mergeSort notAfter).find? (·.name == name)
      = last? fields name := by
    intro name
    rw [← List.head?_filter, filter_mergeSort, List.filter_reverse, List.head?_reverse]
    rfl
  unfold sifted
  cases passed : fields.reverse.mergeSort notAfter with
  | nil =>
    have none : fields = [] := by
      have same := (List.mergeSort_perm fields.reverse notAfter).length_eq
      rw [passed] at same
      simpa using same.symm
    rw [none]
    rfl
  | cons f later =>
    rw [passed] at sorted first
    obtain ⟨inOrder, kept⟩ := eraseRepsBy_sorted later f sorted
    refine eq_of_pairwise_name inOrder (pairwise_normalize fields) fun g => ?_
    rw [kept g, first, mem_normalize]
    rfl

/-! ## §3. Looking for a name by halving -/

/-- Looks for a name among the fields from `low` up to `high`, in the half where it can be. -/
def bisect? (fields : List Field) (name : Atom) (low high : Nat) : Option Field :=
  if low < high then
    let middle := (low + high) / 2
    match fields[middle]? with
    | none => none
    | some f =>
      if f.name < name then bisect? fields name (middle + 1) high
      else if name < f.name then bisect? fields name low middle
      else some f
  else none
termination_by high - low

/-- A field that is found by halving has the name. -/
theorem mem_of_bisect? {low high : Nat} (found : bisect? fields name low high = some f) :
    f ∈ fields ∧ f.name = name := by
  fun_induction bisect? fields name low high with
  | case1 | case5 => cases found
  | case2 _ _ _ _ _ _ _ ih | case3 _ _ _ _ _ _ _ _ ih => exact ih found
  | case4 low high _ middle g hg notBefore notAfter =>
    obtain rfl := Option.some.inj found
    refine ⟨List.mem_of_getElem? hg, congrArg Atom.mk ?_⟩
    exact Nat.le_antisymm (Nat.le_of_not_lt notAfter) (Nat.le_of_not_lt notBefore)

/-- In the order of the names, a field stands no further on than those whose names are not before
its own. -/
theorem name_le (sorted : fields.Pairwise (·.name < ·.name)) {i j : Nat} (le : i ≤ j)
    (hi : fields[i]? = some f) (hj : fields[j]? = some g) : f.name.number ≤ g.name.number := by
  obtain ⟨inside, rfl⟩ := List.getElem?_eq_some_iff.1 hi
  obtain ⟨inside', rfl⟩ := List.getElem?_eq_some_iff.1 hj
  rcases Nat.lt_or_eq_of_le le with lt | rfl
  · exact Nat.le_of_lt (List.pairwise_iff_getElem.1 sorted i j inside inside' lt)
  · exact Nat.le_refl _

/-- A field of the name between the two places is found. -/
theorem bisect?_isSome (sorted : fields.Pairwise (·.name < ·.name)) {low high i : Nat}
    (hf : fields[i]? = some f) (named : f.name = name) (above : low ≤ i) (below : i < high)
    (within : high ≤ fields.length) : (bisect? fields name low high).isSome = true := by
  fun_induction bisect? fields name low high with
  | case1 low high _ middle none =>
    -- the middle is the place of a field
    have past : fields.length ≤ (low + high) / 2 := List.getElem?_eq_none_iff.1 none
    omega
  | case2 low high _ middle g hg before ih =>
    refine ih (Nat.lt_of_not_le fun le => ?_) below within
    have notAfter := name_le sorted le hf hg
    rw [← named] at before
    exact absurd before (Nat.not_lt_of_le notAfter)
  | case3 low high _ middle g hg _ after ih =>
    have inside : middle < fields.length := (List.getElem?_eq_some_iff.1 hg).1
    refine ih above (Nat.lt_of_not_le fun le => ?_) (Nat.le_of_lt inside)
    have notAfter := name_le sorted le hg hf
    rw [← named] at after
    exact absurd after (Nat.not_lt_of_le notAfter)
  | case4 => rfl
  | case5 low high empty => omega

end Field

/-- Looks for a name among all fields of an object, by halving. -/
def Layout.bisect? (s : Layout) (name : Atom) : Option Field :=
  Field.bisect? s.fields name 0 s.fields.length

/-- **FIELDS IN ORDER ARE FOUND BY HALVING.** -/
theorem Layout.IsNormal.bisect?_eq {s : Layout} (normal : s.IsNormal) (name : Atom) :
    s.bisect? name = s.field? name := by
  cases found : s.bisect? name with
  | some f =>
    obtain ⟨hf, rfl⟩ := Field.mem_of_bisect? found
    exact (normal.field?_name hf).symm
  | none =>
    refine (List.find?_eq_none.2 fun f hf same => ?_).symm
    obtain ⟨i, hi⟩ := List.mem_iff_getElem?.1 hf
    have some := Field.bisect?_isSome normal hi (eq_of_beq same) (Nat.zero_le i)
      (List.getElem?_eq_some_iff.1 hi).1 (Nat.le_refl _)
    change (s.bisect? name).isSome = true at some
    rw [found] at some
    cases some

/-! ## §4. Objects -/

/-- A shape that holds the last declarations of a list of fields, in the order of their names. -/
structure Layout.HoldsLast (s : Layout) (fields : List Field) (index : Option IndexSignature) :
    Prop where
  inOrder : s.fields.Pairwise (·.name < ·.name)
  index : s.index = index
  field? : ∀ name, s.field? name = Field.last? fields name
  bisect? : ∀ name, s.bisect? name = Field.last? fields name

theorem Layout.holdsLast_of (fields : List Field) (index : Option IndexSignature) :
    (Layout.of fields index).HoldsLast fields index where
  inOrder := Layout.isNormal_of fields index
  index := rfl
  field? := Field.field?_normalize fields index
  bisect? := fun name =>
    ((Layout.isNormal_of fields index).bisect?_eq name).trans
      (Field.field?_normalize fields index name)

theorem Layout.of_eq_iff {fields others : List Field} {index : Option IndexSignature} :
    Layout.of fields index = Layout.of others index ↔
      ∀ name, Field.last? fields name = Field.last? others name := by
  rw [← Field.normalize_eq_iff]
  exact ⟨congrArg Layout.fields, fun same => congrArg (Layout.mk · index) same⟩

/-- Objects with one index signature are told apart by their shapes. -/
theorem Store.tellsApart_fields {run : Runner ρ} (resolvers : run.Evolves)
    (index : Option IndexSignature) (σ : Store ρ) :
    σ.TellsApart run (fun fields : List Field => Store.objectOf fields index)
      fun fields => Layout.of fields index :=
  Store.discerns_object.tellsApart resolvers
    (fun fields : List Field => Store.grows_carryOut (.object fields index))
    (fun fields : List Field => Store.showsObject_objectOf fields index) σ

/-- **AN OBJECT HOLDS THE LAST DECLARATION OF EACH NAME**, from when it is built and whatever is
done with the store then; and a further list of declarations with the same index signature comes to
the same handle exactly where it declares the same last of all under every name. -/
theorem object_holds_last {run : Runner ρ} (resolvers : run.Evolves) (fields : List Field)
    (index : Option IndexSignature) (σ : Store ρ) (between : List (Operation ρ)) :
    let built := Store.objectOf fields index σ
    let τ := built.2.after run between
    (∃ o, τ.node? built.1 = some (.object o) ∧ (τ.object o).HoldsLast fields index) ∧
      ∀ others : List Field, built.1 = (Store.objectOf others index τ).1 ↔
        ∀ name, Field.last? fields name = Field.last? others name := by
  intro built τ
  have grows : built.2.Grows τ := (Store.evolves_after resolvers between built.2).grows
  constructor
  · obtain ⟨i, node, shape⟩ :=
      Store.discerns_object.later grows (Store.showsObject_objectOf fields index σ)
    refine ⟨⟨i⟩, node, ?_⟩
    -- later operations leave the shape as it was built
    have stored : τ.object ⟨i⟩ = .of fields index := by
      show (τ.objects.get? i).getD {} = _
      rw [shape]
      rfl
    rw [stored]
    exact Layout.holdsLast_of fields index
  · intro others
    have apart := Store.tellsApart_fields resolvers index σ
    exact (apart fields others between).trans Layout.of_eq_iff

/-- A name that is declared three times, between and around the one declaration of another name:
the other order of the last two declarations makes no difference, another last declaration does. -/
theorem object_holds_last_declaredThrice :
    let run := Scope.run {}
    let a : Atom := ⟨64⟩
    let b : Atom := ⟨128⟩
    let text := Intrinsic.string.handle
    let fields : List Field := [⟨a, text, false, false⟩, ⟨a, .any, true, false⟩, ⟨b, text, true, true⟩,
      ⟨a, .never, false, false⟩]
    let built := Store.objectOf fields none (Store.new fun _ => 0)
    let τ := built.2.after run Operation.listOfItself
    run.Evolves ∧
      (∃ o, τ.node? built.1 = some (.object o) ∧
        (τ.object o).field? a = some ⟨a, .never, false, false⟩ ∧
        (τ.object o).field? ⟨192⟩ = none) ∧
      built.1 = (Store.objectOf [⟨a, .never, false, false⟩, ⟨b, text, true, true⟩] none τ).1 ∧
      built.1 ≠ (Store.objectOf fields.reverse none τ).1 := by
  intro run a b text fields built τ
  have resolvers : run.Evolves := evolves_run {}
  obtain ⟨⟨o, node, holds⟩, same⟩ := object_holds_last resolvers fields none (Store.new fun _ => 0)
    Operation.listOfItself
  -- the last declaration of either name counts, and there are no others
  refine ⟨resolvers, ⟨o, node, holds.field? a, holds.field? ⟨192⟩⟩, (same _).2 fun name => ?_, ?_⟩
  · by_cases ha : name = a
    · subst ha
      rfl
    · by_cases hb : name = b
      · subst hb
        rfl
      · -- neither list declares another name
        rw [Field.last?_eq_none_iff.2, Field.last?_eq_none_iff.2]
        · simp [Ne.symm ha, Ne.symm hb]
        · simp [fields, Ne.symm ha, Ne.symm hb]
  -- read backwards, the first declaration is the last, and it differs
  · intro reversed
    have last := (same fields.reverse).1 reversed a
    revert last
    decide

end Assignability
