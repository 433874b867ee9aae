/-
  Assignability.Proofs.Store.Shapes
  ─────────────────────────────────
  **FIELDS STAND IN THE ORDER OF THEIR NAMES.**

  The constructor of objects puts the fields in order, of every name the
  last declaration, and no other call adds an object shape.  So all shapes
  of a store that comes of constructor calls are in this normal form
  (`shapesNormal_of_comes`), and a field is found under its name.
-/
import Assignability.Proofs.Store.Normal

namespace Assignability

variable {ρ : Type}

/-! ## §1. Fields in order -/

namespace Field

variable {f : Field} {fields : List Field}

/-- One field more is put in its place. -/
theorem pairwise_place (sorted : fields.Pairwise (·.name < ·.name)) :
    (place f fields).Pairwise (·.name < ·.name) := by
  -- on the fields: before the first greater name, in the place of an equal one, or further down
  induction fields with
  | nil => exact List.pairwise_singleton _ _
  | cons a fields ih =>
    obtain ⟨head, tail⟩ := List.pairwise_cons.1 sorted
    unfold place
    split
    · next first =>
      refine List.pairwise_cons.2 ⟨fun b hb => ?_, sorted⟩
      rcases List.mem_cons.1 hb with rfl | hb
      · exact first
      · exact Nat.lt_trans first (head b hb)
    · next notFirst =>
      split
      · exact sorted
      · next other =>
        refine List.pairwise_cons.2 ⟨fun b hb => ?_, ih tail⟩
        rcases mem_place hb with rfl | hb
        · have different : a.name.number ≠ b.name.number := fun same => other (by
            cases ha : a.name
            cases hb : b.name
            rw [ha, hb] at same
            exact congrArg Atom.mk same.symm)
          exact Nat.lt_of_le_of_ne (Nat.le_of_not_lt notFirst) different
        · exact head b hb

theorem pairwise_normalize (fields : List Field) :
    (normalize fields).Pairwise (·.name < ·.name) := by
  induction fields with
  | nil => exact List.Pairwise.nil
  | cons f fields ih => exact pairwise_place ih

/-- A field is put in its place unless there is a field of its name. -/
theorem mem_place_iff {g : Field} {later : List Field}
    (sorted : later.Pairwise (·.name < ·.name)) :
    f ∈ place g later ↔ f ∈ later ∨ (f = g ∧ ∀ x ∈ later, x.name ≠ g.name) := by
  -- on the fields that were declared later; they win over the one that is placed
  induction later with
  | nil => simp [place]
  | cons a later ih =>
    obtain ⟨head, tail⟩ := List.pairwise_cons.1 sorted
    unfold place
    split
    · next first =>
      have apart : ∀ x ∈ a :: later, x.name ≠ g.name := by
        intro x hx same
        have lt : g.name < x.name := by
          rcases List.mem_cons.1 hx with rfl | hx
          · exact first
          · exact Nat.lt_trans first (head x hx)
        exact absurd (same ▸ lt) (Nat.lt_irrefl _)
      rw [List.mem_cons, or_comm, and_iff_left apart]
    · split
      · next same =>
        refine ⟨.inl, fun h => h.resolve_right fun h => ?_⟩
        exact h.2 a List.mem_cons_self same.symm
      · next other =>
        rw [List.mem_cons, ih tail, List.mem_cons, or_assoc, List.forall_mem_cons,
          and_iff_right (Ne.symm other)]

/-- The fields that are left are the last declarations of their names. -/
theorem mem_normalize : f ∈ normalize fields ↔
    (fields.filter (·.name == f.name)).getLast? = some f := by
  -- on the declarations: one more in front is the last of its name only if it is alone
  induction fields generalizing f with
  | nil => exact ⟨nofun, nofun⟩
  | cons g fields ih =>
    show f ∈ place g (normalize fields) ↔ _
    rw [mem_place_iff (pairwise_normalize fields), ih]
    by_cases same : g.name = f.name
    · rw [List.filter_cons_of_pos (by simpa using same), List.getLast?_cons]
      cases last : (fields.filter (·.name == f.name)).getLast? with
      | none =>
        have none := List.getLast?_eq_none_iff.1 last
        have apart : ∀ x ∈ normalize fields, x.name ≠ g.name := fun x hx hxg =>
          List.filter_eq_nil_iff.1 none x (mem_of_mem_normalize hx) (by simpa using hxg.trans same)
        rw [and_iff_left apart]
        simp [eq_comm]
      | some x =>
        have named : x.name = f.name := by
          simpa using (List.mem_filter.1 (List.mem_of_getLast? last)).2
        have left : x ∈ normalize fields := ih.2 (by rw [named]; exact last)
        refine ⟨fun h => h.resolve_right fun h => ?_, .inl⟩
        exact h.2 x left (named.trans same.symm)
    · rw [List.filter_cons_of_neg (by simpa using same)]
      exact ⟨fun h => h.resolve_right fun h => same (h.1 ▸ rfl), .inl⟩

end Field

/-- The fields stand in the order of their names, each name once. -/
def Layout.IsNormal (s : Layout) : Prop := s.fields.Pairwise (·.name < ·.name)

theorem Layout.isNormal_of (fields : List Field) (index : Option IndexSignature) :
    (Layout.of fields index).IsNormal := Field.pairwise_normalize fields

/-- A field is found under its name. -/
theorem Layout.IsNormal.field?_name {s : Layout} (normal : s.IsNormal) {f : Field}
    (hf : f ∈ s.fields) : s.field? f.name = some f := by
  obtain ⟨fields, index⟩ := s
  unfold field?
  change fields.Pairwise (·.name < ·.name) at normal
  change f ∈ fields at hf
  dsimp only
  -- on the fields: names ascend, so no field before `f` has its name
  induction fields with
  | nil => cases hf
  | cons a fields ih =>
    obtain ⟨head, tail⟩ := List.pairwise_cons.1 normal
    rcases List.mem_cons.1 hf with rfl | hf
    · exact List.find?_cons_of_pos (beq_self_eq_true _)
    · have apart : ¬ (a.name == f.name) = true := by
        intro same
        have lt := head f hf
        rw [beq_iff_eq.1 same] at lt
        exact Nat.lt_irrefl _ lt
      exact (List.find?_cons_of_neg (p := fun g : Field => g.name == f.name) apart).trans (ih tail hf)

/-! ## §2. Stores of such shapes -/

namespace Store

variable {σ τ : Store ρ} {run : Runner ρ}

/-- All object shapes of a store are in normal form. -/
def ShapesNormal (σ : Store ρ) : Prop := ∀ i s, σ.objects.get? i = some s → s.IsNormal

theorem ShapesNormal.object (normal : σ.ShapesNormal) (o : ObjectId) : (σ.object o).IsNormal := by
  unfold Store.object
  cases hs : σ.objects.get? o.number with
  | none => exact List.Pairwise.nil
  | some s => exact normal _ s hs

/-- The one step that adds a shape adds one in normal form. -/
theorem keptBySteps_shapesNormal : KeptBySteps (ShapesNormal : Store ρ → Prop) where
  node := fun _ _ normal => normal
  list := fun _ _ normal => normal
  tuple := fun _ _ normal => normal
  object := by
    intro fields index σ normal i s hs
    rcases Table.get?_of_intern hs with hs | rfl
    · exact normal i s hs
    · exact Layout.isNormal_of fields index
  function := fun _ _ normal => normal
  text := fun _ _ normal => normal
  declare := fun _ normal => normal

/-- One call keeps the shapes in normal form. -/
theorem ShapesNormal.call (normal : σ.ShapesNormal) (c : Call ρ) : (c.carryOut σ).ShapesNormal :=
  keptBySteps_shapesNormal.carryOut c (fun _ _ _ => normal) normal

/-- **ALL SHAPES THAT CONSTRUCTORS BUILD ARE IN NORMAL FORM**, whatever resolvers were carried
out. -/
theorem ShapesNormal.of_comes (normal : σ.ShapesNormal) (comes : Comes run σ τ) :
    τ.ShapesNormal := by
  induction comes with
  | refl => exact normal
  | call c _ _ _ ih => exact (ih normal).call c
  | resolve _ _ _ _ ihBefore ihInner => exact ihInner (ihBefore normal)

/-- Every store that the constructors build has all its shapes in normal form. -/
theorem shapesNormal_of_comes (assign : String → Fin 64) (comes : Comes run (.new assign) σ) :
    σ.ShapesNormal := by
  refine ShapesNormal.of_comes (fun i s hs => ?_) comes
  cases (show (none : Option Layout) = some s from hs)

end Store

/-- What holds of the shapes that are listed holds of all that are in the store. -/
theorem Listing.forall_objects {l : Listing ρ} {p : Layout → Prop} (h : ∀ s ∈ l.objects, p s) :
    ∀ i s, l.store.objects.get? i = some s → p s := by
  intro i s hs
  have listed : l.objects[i]? = some s := (Table.get?_ofList l.distinct.2.2 i).symm.trans hs
  exact h s (List.mem_of_getElem? listed)

/-- The shapes of a listing are in order where all that are listed are. -/
theorem Listing.shapesNormal {l : Listing ρ} (h : ∀ s ∈ l.objects, s.IsNormal) :
    l.store.ShapesNormal := Listing.forall_objects h

end Assignability
