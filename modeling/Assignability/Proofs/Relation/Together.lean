/-
  Assignability.Proofs.Relation.Together
  ──────────────────────────────────────
  **INTERSECTIONS OF OBJECTS.**

  The objects of an intersection fit a target together
  (`FitTogether`): one of them does, or they fit a member of a union, every
  member of an intersection, or an object field by field.  A field is fit
  by that of one of them, and an index signature bounds those of all
  (`FitMerged`, `fitAsOne_iff`).

  An intersection of objects without index signatures fits a target where
  they do so (`fits_together_iff`).
-/
import Assignability.Proofs.Query.Parallel
import Assignability.Proofs.Relation.Closed
import Assignability.Proofs.Relation.Plain

namespace Assignability

variable {ρ : Type}

namespace View

variable {v : View ρ} {i t : Handle} {members : List Handle} {l : ListId} {p : ObjectId}
  {sources : List Layout} {f g : Field}

/-! ## §1. Objects merged field by field -/

/-- Whether all are objects without index signatures. -/
def AreClosedObjects (v : View ρ) (members : List Handle) : Prop :=
  ∀ m ∈ members, ∃ o, v.store.node? m = some (.object o) ∧ (v.store.object o).index = none

/-- One of several objects has a field of a name. -/
def Declares (v : View ρ) (members : List Handle) (name : Atom) (g : Field) : Prop :=
  ∃ m ∈ members, ∃ o, v.store.node? m = some (.object o) ∧ (v.store.object o).field? name = some g

/-- Several objects fit one field by field: a field of the target is fit by that of one of them, and
is always present in one where it is required; and all their fields fit the index signature. -/
structure FitMerged (v : View ρ) (members : List Handle) (target : Layout) : Prop where
  declared : ∀ f ∈ target.fields, (∃ g, v.Declares members f.name g) →
    (f.optional = true ∨ ∃ g, v.Declares members f.name g ∧ g.isAlwaysPresent = true) ∧
      ∃ g, v.Declares members f.name g ∧ v.Fits g.type f.type
  undeclared : ∀ f ∈ target.fields, (¬ ∃ g, v.Declares members f.name g) → f.optional = true
  under : ∀ j, target.index = some j → ∀ m ∈ members, ∀ o, v.store.node? m = some (.object o) →
    ∀ f ∈ (v.store.object o).fields, v.admits j.key f.name = true → v.Fits f.type j.value

/-- A field against merged objects, of which these have one of its name. -/
theorem isTrue_eval_mergedField_of_found {found : List Field}
    (hf : sources.filterMap (·.field? f.name) = found) :
    ((Query.mergedField sources f).eval v v.keysFit v.fits).isTrue = true
      ↔ (found ≠ [] → (f.optional = true ∨ ∃ g ∈ found, g.isAlwaysPresent = true) ∧
          ∃ g ∈ found, v.Fits g.type f.type) ∧
        (found = [] → f.optional = true) := by
  unfold Query.mergedField
  dsimp only
  rw [hf]
  -- no member declares the name, or the declared fields are asked one after the other
  cases found with
  | nil => simp
  | cons g gs =>
    have fits : ((Query.any (fun g => Query.related g.type f.type) (g :: gs)).eval v v.keysFit
        v.fits).isTrue = true ↔ ∃ x ∈ g :: gs, v.Fits x.type f.type := by
      rw [Query.isTrue_eval_any, List.any_eq_true]
      simp only [Query.isTrue_eval_related, fits_eq_true]
    have present : (!f.optional && !(g :: gs).any Field.isAlwaysPresent) = true
        ↔ ¬ (f.optional = true ∨ ∃ x ∈ g :: gs, x.isAlwaysPresent = true) := by
      rw [← List.any_eq_true]
      cases f.optional <;> simp
    have some : g :: gs ≠ [] := List.cons_ne_nil g gs
    rw [if_neg (by simp), and_iff_left (fun h => absurd h some)]
    split
    · next missing =>
      refine iff_of_false ?_ fun h => present.1 missing (h some).1
      intro h
      cases h
    · next there =>
      rw [fits]
      exact ⟨fun h _ => ⟨Classical.not_not.1 (mt present.2 there), h⟩, fun h => (h some).2⟩

/-- The layouts of members that are all objects. -/
theorem eval_layouts_of_objects (keys fits : Handle → Handle → Bool)
    (each : ∀ m ∈ members, ∃ o, v.store.node? m = some (.object o)) :
    ∃ shapes, (Query.layouts members).eval v keys fits = some shapes ∧
      Matched (fun m s => ∃ o, v.store.node? m = some (.object o) ∧ s = v.store.object o)
        members shapes := by
  induction members with
  | nil => exact ⟨[], rfl, .nil⟩
  | cons m ms ih =>
    obtain ⟨⟨o, ho⟩, rest⟩ := List.forall_mem_cons.1 each
    obtain ⟨shapes, hs, all⟩ := ih rest
    refine ⟨v.store.object o :: shapes, ?_, .cons ⟨o, ho, rfl⟩ all⟩
    unfold Query.layouts
    have stands : (Query.resolved m : Query ρ Handle).eval v keys fits = m :=
      stands_of_node ho rfl
    simp only [Query.bind_eq, Query.eval_bind, Query.eval_store, stands, ho, hs]
    rfl

section

variable {shapes : List Layout} (matched :
  Matched (fun m s => ∃ o, v.store.node? m = some (.object o) ∧ s = v.store.object o) members shapes)
include matched

/-- The fields of a name are those that the members declare. -/
theorem mem_filterMap_iff_declares (name : Atom) :
    g ∈ shapes.filterMap (·.field? name) ↔ v.Declares members name g := by
  rw [List.mem_filterMap]
  constructor
  · rintro ⟨_, hs, hg⟩
    obtain ⟨m, hm, o, ho, rfl⟩ := matched.right _ hs
    exact ⟨m, hm, o, ho, hg⟩
  · rintro ⟨m, hm, o, ho, hg⟩
    obtain ⟨_, hs, o', ho', rfl⟩ := matched.left m hm
    obtain rfl := Node.object.inj (Option.some.inj (ho.symm.trans ho'))
    exact ⟨_, hs, hg⟩

/-- A merged field fits where it is there if it must be, and one declared field fits alone. -/
theorem isTrue_eval_mergedField_iff (f : Field) :
    ((Query.mergedField shapes f).eval v v.keysFit v.fits).isTrue = true
      ↔ ((∃ g, v.Declares members f.name g) →
          (f.optional = true ∨ ∃ g, v.Declares members f.name g ∧ g.isAlwaysPresent = true) ∧
            ∃ g, v.Declares members f.name g ∧ v.Fits g.type f.type) ∧
        ((¬ ∃ g, v.Declares members f.name g) → f.optional = true) := by
  have among := fun g => mem_filterMap_iff_declares (g := g) matched f.name
  have none : shapes.filterMap (·.field? f.name) = [] ↔ ¬ ∃ g, v.Declares members f.name g := by
    rw [List.eq_nil_iff_forall_not_mem, not_exists]
    exact forall_congr' fun g => not_congr (among g)
  rw [isTrue_eval_mergedField_of_found rfl, ne_eq, none, Classical.not_not]
  simp only [among]

variable (each : v.AreClosedObjects members)
include each

/-- Objects without index signatures against an index signature, all their fields. -/
theorem isTrue_eval_allUnder_iff (j : IndexSignature) :
    ((Query.every (Query.objectUnder j) shapes).eval v v.keysFit v.fits).isTrue = true
      ↔ ∀ m ∈ members, ∀ o, v.store.node? m = some (.object o) →
        ∀ f ∈ (v.store.object o).fields, v.admits j.key f.name = true → v.Fits f.type j.value := by
  -- without an index signature of its own, an object is bounded by its fields alone
  have one : ∀ m ∈ members, ∀ o, v.store.node? m = some (.object o) →
      (((Query.objectUnder j (v.store.object o)).eval v v.keysFit v.fits).isTrue = true
        ↔ ∀ f ∈ (v.store.object o).fields, v.admits j.key f.name = true → v.Fits f.type j.value) := by
    intro m hm o ho
    obtain ⟨o', ho', closed⟩ := each m hm
    obtain rfl := Node.object.inj (Option.some.inj (ho'.symm.trans ho))
    rw [isTrue_eval_objectUnder (by rw [closed]; exact nofun), closed]
    exact and_iff_left nofun
  rw [Query.isTrue_eval_every, List.all_eq_true]
  constructor
  · intro h m hm o ho
    obtain ⟨_, hs, o', ho', rfl⟩ := matched.left m hm
    obtain rfl := Node.object.inj (Option.some.inj (ho.symm.trans ho'))
    exact (one m hm o ho).1 (h _ hs)
  · intro h s hs
    obtain ⟨m, hm, o, ho, rfl⟩ := matched.right s hs
    exact (one m hm o ho).2 (h m hm o ho)

end

/-- **OBJECTS WITHOUT INDEX SIGNATURES FIT AN OBJECT AS ONE WHERE THEY DO FIELD BY FIELD.** -/
theorem fitAsOne_iff (each : v.AreClosedObjects members) :
    v.FitAsOne members (.object p) ↔ v.FitMerged members (v.store.object p) := by
  -- closed objects are their own layouts, so merging them reads the declared fields
  have objects : ∀ m ∈ members, ∃ o, v.store.node? m = some (.object o) :=
    fun m hm => (each m hm).imp fun _ h => h.1
  obtain ⟨shapes, hs, matched⟩ := eval_layouts_of_objects v.keysFit v.fits objects
  unfold FitAsOne Query.asOneObject
  dsimp only
  rw [Query.bind_eq, Query.eval_bind, hs]
  change ((Query.merged shapes (v.store.object p)).eval v v.keysFit v.fits).isTrue = true ↔ _
  unfold Query.merged
  rw [Query.isTrue_eval_andThen, Bool.and_eq_true, Query.isTrue_eval_every, List.all_eq_true]
  simp only [isTrue_eval_mergedField_iff matched]
  cases hj : (v.store.object p).index with
  | none =>
    constructor
    · rintro ⟨h, -⟩
      exact ⟨fun f hf => (h f hf).1, fun f hf => (h f hf).2, by rw [hj]; exact nofun⟩
    · exact fun h => ⟨fun f hf => ⟨h.declared f hf, h.undeclared f hf⟩, rfl⟩
  | some j =>
    dsimp only
    rw [isTrue_eval_allUnder_iff matched each]
    constructor
    · rintro ⟨h, index⟩
      refine ⟨fun f hf => (h f hf).1, fun f hf => (h f hf).2, fun j' h' => ?_⟩
      obtain rfl := Option.some.inj (hj.symm.trans h')
      exact index
    · exact fun h => ⟨fun f hf => ⟨h.declared f hf, h.undeclared f hf⟩, h.under j hj⟩

/-! ## §2. Objects that fit together -/

/-- Several objects fit a target together. -/
inductive FitTogether (v : View ρ) (members : List Handle) : Handle → Prop
  /-- One of them does. -/
  | alone {m t : Handle} (hm : m ∈ members) (h : v.Fits m t) : FitTogether v members t
  | member {t x : Handle} {n : Node} {ms : List Handle} (ht : v.store.node? t = some n)
    (ha : v.store.alternatives? n = some ms) (hx : x ∈ ms) (h : FitTogether v members x) :
    FitTogether v members t
  | every {t : Handle} {l : ListId} (ht : v.store.node? t = some (.intersection l))
    (h : ∀ x ∈ v.store.list l, FitTogether v members x) : FitTogether v members t
  | merged {t : Handle} {p : ObjectId} (ht : v.store.node? t = some (.object p))
    (h : v.FitMerged members (v.store.object p)) : FitTogether v members t

/-- Only the objects themselves matter, not how they are listed. -/
theorem FitTogether.congr {ms : List Handle} (same : ∀ m, m ∈ members ↔ m ∈ ms)
    (h : v.FitTogether members t) : v.FitTogether ms t := by
  have declares : ∀ name g, v.Declares members name g ↔ v.Declares ms name g := by
    intro name g
    unfold Declares
    simp only [same]
  -- the list matters only through what is a member and what the members declare
  induction h with
  | alone hm h => exact .alone ((same _).1 hm) h
  | member ht ha hx _ ih => exact .member ht ha hx ih
  | every ht _ ih => exact .every ht ih
  | merged ht h =>
    refine .merged ht ⟨?_, ?_, fun j hj m hm => h.under j hj m ((same m).2 hm)⟩
    · have declared := h.declared
      simp only [declares] at declared
      exact declared
    · have undeclared := h.undeclared
      simp only [declares] at undeclared
      exact undeclared

section

variable (hi : v.store.node? i = some (.intersection l))
  (each : v.AreClosedObjects (v.store.list l))
include hi each

/-- Where one object of an intersection fits, so does the intersection. -/
theorem fits_of_alone {m : Handle} (hm : m ∈ v.store.list l) (h : v.Fits m t)
    (ft : v.store.LazyFree t) : v.Fits i t := by
  obtain ⟨o, ho, -⟩ := each m hm
  -- on the parts of the target, as members of an intersection are met one by one
  induction ft using Store.LazyFree.induction with
  | step t ft ih =>
    rcases h.atOnce_or_node with atOnce | ⟨target, ht, notAtOnce⟩
    · rcases atOnce.cases_of_node ho nofun nofun with top | rfl
      · exact AtOnce.fits (.top top)
      · refine fits_of_apart hi ho (.inl rfl) fun apart => ?_
        exact (fits_intersection_iff apart hi ho rfl rfl nofun).2 (.inl ⟨m, hm, h⟩)
    · refine fits_of_apart hi ht (.inl rfl) fun apart => ?_
      cases ha : v.store.alternatives? target with
      | some ms =>
        exact (fits_intersection_into_alternatives_iff apart hi ht ha).2 (.inr (.inl ⟨m, hm, h⟩))
      | none =>
        by_cases it : target.kind = .intersection
        · obtain ⟨l', rfl⟩ := Node.exists_intersection it
          have fits := (fits_into_intersection_iff notAtOnce ho ht rfl rfl).1 h
          exact (fits_into_intersection_iff apart hi ht rfl rfl).2 fun x hx =>
            ih _ ht x hx (fits x hx)
        · exact (fits_intersection_iff apart hi ht (ft.isLazy ht) ha it).2 (.inl ⟨m, hm, h⟩)

/-- What fits together fits as an intersection. -/
theorem fits_of_fitTogether (h : v.FitTogether (v.store.list l) t) (ft : v.store.LazyFree t) :
    v.Fits i t := by
  induction h with
  | alone hm h => exact fits_of_alone hi each hm h ft
  | member ht ha hx _ ih =>
    have part := Store.mem_components_of_alternatives? ha hx
    exact fits_into_alternatives hi ht rfl rfl ha hx (ih (ft.component ht part))
  | every ht _ ih =>
    refine fits_of_apart hi ht (.inl rfl) fun apart => ?_
    exact (fits_into_intersection_iff apart hi ht rfl rfl).2 fun x hx =>
      ih x hx (ft.component ht hx)
  | merged ht h =>
    refine fits_of_apart hi ht (.inl rfl) fun apart => ?_
    exact (fits_intersection_iff apart hi ht rfl rfl nofun).2 (.inr ((fitAsOne_iff each).2 h))

/-- Conversely, members of an intersection that fits do so together. -/
theorem fitTogether_of_fits (nonempty : v.store.list l ≠ []) (h : v.Fits i t)
    (ft : v.store.LazyFree t) : v.FitTogether (v.store.list l) t := by
  -- on the target, which has no lazies, in the order of the rules
  induction ft using Store.LazyFree.induction with
  | step t ft ih =>
    rcases h.atOnce_or_node with atOnce | ⟨target, ht, apart⟩
    · rcases atOnce.cases_of_node hi nofun nofun with top | rfl
      · obtain ⟨m, hm⟩ := List.exists_mem_of_ne_nil _ nonempty
        exact .alone hm (AtOnce.fits (.top top))
      · exact .every hi fun x hx => .alone hx (.refl x)
    · cases ha : v.store.alternatives? target with
      | some ms =>
        rcases (fits_intersection_into_alternatives_iff apart hi ht ha).1 h with
          among | ⟨m, hm, fits⟩ | one
        · obtain ⟨x, hx, fits⟩ := among.exists_of_node hi nofun
          exact .member ht ha hx (ih _ ht x (Store.mem_components_of_alternatives? ha hx) fits)
        · exact .alone hm fits
        · cases target with
          | union | enumeration => cases one
          | _ => cases ha
      | none =>
        by_cases it : target.kind = .intersection
        · obtain ⟨l', rfl⟩ := Node.exists_intersection it
          have all := (fits_into_intersection_iff apart hi ht rfl rfl).1 h
          exact .every ht fun x hx => ih _ ht x hx (all x hx)
        · rcases (fits_intersection_iff apart hi ht (ft.isLazy ht) ha it).1 h with
            ⟨m, hm, fits⟩ | one
          · exact .alone hm fits
          · cases target with
            | object p => exact .merged ht ((fitAsOne_iff each).1 one)
            | _ => cases one

/-- **AN INTERSECTION OF OBJECTS FITS A TARGET WHERE THE OBJECTS DO TOGETHER.** -/
theorem fits_together_iff (nonempty : v.store.list l ≠ []) (ft : v.store.LazyFree t) :
    v.Fits i t ↔ v.FitTogether (v.store.list l) t :=
  ⟨fun h => fitTogether_of_fits hi each nonempty h ft, fun h => fits_of_fitTogether hi each h ft⟩

end

end View

end Assignability
