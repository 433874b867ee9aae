/-
  Assignability.Proofs.Diagnosis.Object
  ─────────────────────────────────────
  **WHY OBJECTS DO NOT FIT.**

  An explanation goes through the fields of the target as the comparison
  does, and names the first that is rejected by what the source declares
  under its name.  It leaves out two things that the comparison looks at.
  A field that the source does not declare may be read through the index
  signature of the source; where that is what fails, the explanation goes
  on to later fields, and in the end has nothing to say of the field.  And
  it does not ask whether the keys of two index signatures overlap; where
  no field is read in this way, they do (`ObjectReason`).

  Main statement: `explained_object`.
-/
import Assignability.Proofs.Diagnosis.First
import Assignability.Proofs.Diagnosis.Snapshot
import Assignability.Proofs.Relation.IndexSignature

namespace Assignability

variable {ρ : Type}

namespace View

/-! ## §1. Rejected fields -/

/-- A target field is rejected for what the source declares under its name. -/
def Rejects (v : View ρ) (source : Layout) (f : Field) : Prop :=
  match source.field? f.name with
  | none => f.optional = false
  | some g => f.optional = false ∧ g.isAlwaysPresent = false ∨ ¬ v.Fits g.type f.type

/-- A target field that may be left out is rejected for what the index signature of the source holds
under its name. -/
def RejectsRead (v : View ρ) (source : Layout) (f : Field) : Prop :=
  source.field? f.name = none ∧ f.optional = true ∧
    ∃ i, source.index = some i ∧ v.admits i.key f.name = true ∧ ¬ v.Fits i.value f.type

/-- The reason that names a rejected field. -/
inductive FieldReason (v : View ρ) (s t : Handle) (source : Layout) (f : Field) : Reason → Prop
  | missing (undeclared : source.field? f.name = none) (required : f.optional = false) :
    FieldReason v s t source f (.missingProperty f.name s t)
  | optional {g : Field} (declared : source.field? f.name = some g)
    (required : f.optional = false) (absent : g.isAlwaysPresent = false) :
    FieldReason v s t source f (.optionalProperty f.name)
  | mismatch {g : Field} (declared : source.field? f.name = some g)
    (present : f.optional = true ∨ g.isAlwaysPresent = true) (apart : ¬ v.Fits g.type f.type)
    (cause : Reason) :
    FieldReason v s t source f (.propertyMismatch f.name g.type f.type (some cause))

/-- The reason for two objects that do not fit. -/
inductive ObjectReason (v : View ρ) (s t : Handle) (source target : Layout) : Reason → Prop
  /-- The first field of the target that is rejected for what the source declares. -/
  | field {k : Nat} {f : Field} {reason : Reason}
    (first : FirstNot (fun f => ¬ v.Rejects source f) target.fields k f)
    (names : v.FieldReason s t source f reason) : ObjectReason v s t source target reason
  /-- The first field of the source that does not fit the index signature of the target. -/
  | indexed {j : IndexSignature} {k : Nat} {g : Field}
    (fields : ∀ f ∈ target.fields, ¬ v.Rejects source f) (index : target.index = some j)
    (first : FirstNot (fun g => v.admits j.key g.name = true → v.Fits g.type j.value)
      source.fields k g) :
    ObjectReason v s t source target (.indexMismatch (some g.name) g.type j.value)
  /-- The index signatures, the keys of which overlap if no field is read through them. -/
  | index {i j : IndexSignature} (fields : ∀ f ∈ target.fields, ¬ v.Rejects source f)
    (index : target.index = some j) (own : source.index = some i)
    (under : ∀ g ∈ source.fields, v.admits j.key g.name = true → v.Fits g.type j.value)
    (apart : ¬ v.Fits i.value j.value)
    (overlap : (v.Fits i.key j.key ∨ v.Fits j.key i.key) ∨
      ∃ f ∈ target.fields, v.RejectsRead source f) :
    ObjectReason v s t source target (.indexMismatch none i.value j.value)
  /-- Nothing of that: there is a field that is read through the index signature of the source. -/
  | whole {f : Field} (fields : ∀ f ∈ target.fields, ¬ v.Rejects source f)
    (hf : f ∈ target.fields) (read : v.RejectsRead source f) :
    ObjectReason v s t source target (.mismatch s t)

/-! ## §2. What is to blame -/

section

variable {v : View ρ} {s t : Handle} {source target : Layout} {f : Field}

/-- There is no blame for a field exactly where it is not rejected. -/
theorem eval_blameField?_eq_none_iff :
    (Query.blameField? s source t f).eval v v.fits v.fits = none ↔ ¬ v.Rejects source f := by
  unfold Query.blameField? Rejects
  cases hf : source.field? f.name with
  | none => cases f.optional <;> simp
  | some g => cases f.optional <;> cases hp : g.isAlwaysPresent <;> simp [hp]

/-- A declared field that may be missing is no fault where the target does not need it. -/
theorem present_iff {g : Field} : ¬ (!f.optional && !g.isAlwaysPresent) = true
    ↔ f.optional = true ∨ g.isAlwaysPresent = true := by
  cases f.optional <;> cases g.isAlwaysPresent <;> decide

/-- What is to blame for a field names it. -/
theorem fieldReason_of_eval {b : Blame} (below : Handle → Handle → Reason)
    (h : (Query.blameField? s source t f).eval v v.fits v.fits = some b) :
    v.FieldReason s t source f (b.toReason below s t) := by
  unfold Query.blameField? at h
  cases hf : source.field? f.name with
  -- not declared by the source: a fault only where the target requires it
  | none =>
    rw [hf] at h
    cases required : f.optional with
    | false =>
      rw [required] at h
      cases h
      exact .missing hf required
    | true =>
      rw [required] at h
      cases h
  -- declared: it must be there where it is required, and its type must fit
  | some g =>
    rw [hf] at h
    dsimp only at h
    split at h
    · next absent =>
      cases h
      rw [Bool.and_eq_true, Bool.not_eq_true', Bool.not_eq_true'] at absent
      exact .optional hf absent.1 absent.2
    · next present =>
      rw [Query.eval_blamePart?] at h
      split at h
      · cases h
      · next apart =>
        cases h
        exact .mismatch hf (present_iff.1 present) (fun fits => apart (fits_eq_true.2 fits)) _

/-- A source field is to blame where the index signature admits its name and not its type. -/
theorem eval_blameIndexedField? (j : IndexSignature) (g : Field) :
    (Query.blameIndexedField? j g).eval v v.fits v.fits
      = if v.admits j.key g.name && !v.fits g.type j.value then
          some (.reason (.indexMismatch (some g.name) g.type j.value)) else none := by
  unfold Query.blameIndexedField?
  rw [Query.bind_eq, Query.eval_bind, eval_admits]
  cases v.admits j.key g.name with
  | false => rfl
  | true =>
    rw [if_pos rfl, Query.eval_reasonPart?]
    cases v.fits g.type j.value <;> rfl

/-- There is none where every admitted field fits the value. -/
theorem eval_blameIndexedField?_eq_none_iff {j : IndexSignature} {g : Field} :
    (Query.blameIndexedField? j g).eval v v.fits v.fits = none
      ↔ (v.admits j.key g.name = true → v.Fits g.type j.value) := by
  rw [eval_blameIndexedField?]
  cases v.admits j.key g.name <;> simp

section

variable (unfit : ¬ (v.FieldsFit source target ∧ v.IndexesFit source target))
  (fields : ∀ f ∈ target.fields, ¬ v.Rejects source f)
include unfit fields

/-- Where no field is rejected for what the source declares, the index signatures are what fails, or
a field that is read through that of the source. -/
theorem not_indexesFit_or_read (under : ∀ j, target.index = some j → ∀ g ∈ source.fields,
      v.admits j.key g.name = true → v.Fits g.type j.value) :
    ¬ v.IndexesFit source target ∨ ∃ f ∈ target.fields, v.RejectsRead source f := by
  by_cases read : ∃ f ∈ target.fields, v.RejectsRead source f
  · exact .inr read
  -- else all fields fit, those that are read through the index signature, too
  refine .inl fun indexes => unfit ⟨⟨fun f hf g hg => ?_, fun f hf hg => ?_, under⟩, indexes⟩
  · have accepted := fields f hf
    unfold Rejects at accepted
    rw [hg] at accepted
    dsimp only at accepted
    rw [not_or, not_not] at accepted
    refine ⟨?_, accepted.2⟩
    cases ho : f.optional with
    | true => exact .inl rfl
    | false =>
      cases hp : g.isAlwaysPresent with
      | true => exact .inr rfl
      | false => exact absurd ⟨ho, hp⟩ accepted.1
  · have accepted := fields f hf
    unfold Rejects at accepted
    rw [hg] at accepted
    have optional : f.optional = true := by rwa [Bool.not_eq_false] at accepted
    refine ⟨optional, fun i own admitted => ?_⟩
    by_cases fits : v.Fits i.value f.type
    · exact fits
    · exact absurd ⟨f, hf, hg, optional, i, own, admitted, fits⟩ read

/-- Where the index signatures fit, too, there is nothing to say. -/
theorem objectReason_mismatch (under : ∀ j, target.index = some j → ∀ g ∈ source.fields,
      v.admits j.key g.name = true → v.Fits g.type j.value) (indexes : v.IndexesFit source target) :
    v.ObjectReason s t source target (.mismatch s t) := by
  obtain ⟨f, hf, read⟩ :=
    (not_indexesFit_or_read unfit fields under).resolve_left (not_not.2 indexes)
  exact .whole fields hf read

/-- Where all fields fit the index signature of the target, that of the source does not, or there is
nothing to say. -/
theorem objectReason_of_under {j : IndexSignature} (hj : target.index = some j)
    (under : ∀ g ∈ source.fields, v.admits j.key g.name = true → v.Fits g.type j.value) :
    (∀ i, source.index = some i → v.Fits i.value j.value) ∧
        v.ObjectReason s t source target (.mismatch s t) ∨
      ∃ i, source.index = some i ∧ ¬ v.Fits i.value j.value ∧
        v.ObjectReason s t source target (.indexMismatch none i.value j.value) := by
  have only : ∀ {j'}, target.index = some j' → j = j' := fun h => Option.some.inj (hj.symm.trans h)
  have under' : ∀ j', target.index = some j' → ∀ g ∈ source.fields,
      v.admits j'.key g.name = true → v.Fits g.type j'.value := fun j' h => only h ▸ under
  by_cases fits : ∀ i, source.index = some i → v.Fits i.value j.value
  · refine .inl ⟨fits, objectReason_mismatch unfit fields under' fun i j' hi hj' _ => ?_⟩
    exact only hj' ▸ fits i hi
  · simp only [not_forall] at fits
    obtain ⟨i, hi, apart⟩ := fits
    refine .inr ⟨i, hi, apart, .index fields hj hi under apart ?_⟩
    refine (not_indexesFit_or_read unfit fields under').imp_left fun indexes => ?_
    -- the values of index signatures whose keys are separate are not compared
    by_contra separate
    refine indexes fun i' j' hi' hj' overlap => ?_
    obtain rfl := Option.some.inj (hi.symm.trans hi')
    obtain rfl := only hj'
    exact absurd overlap separate

/-- What is to blame where the target has an index signature. -/
theorem objectReason_of_index {j : IndexSignature} (hj : target.index = some j)
    (below : Handle → Handle → Reason) :
    v.ObjectReason s t source target ((((Query.blameIndex? source j).eval v v.fits v.fits).getD
      (.reason (.mismatch s t))).toReason below s t) := by
  unfold Query.blameIndex?
  rw [Query.eval_orBlame]
  rcases v.eval_findSomeM? (Query.blameIndexedField? j) source.fields with
    ⟨all, found⟩ | ⟨k, g, first, found⟩
  · -- no field is to blame, so the search goes on to the source's own index signature
    rw [found, Option.none_or]
    have under : ∀ g ∈ source.fields, v.admits j.key g.name = true → v.Fits g.type j.value :=
      fun g hg => eval_blameIndexedField?_eq_none_iff.1 (all g hg)
    rcases objectReason_of_under unfit fields hj under with ⟨fits, why⟩ | ⟨i, hi, apart, why⟩
    · cases hi : source.index with
      | none => exact why
      | some i =>
        dsimp only
        rw [Query.eval_reasonPart?, if_pos (fits_eq_true.2 (fits i hi))]
        exact why
    · rw [hi]
      dsimp only
      rw [Query.eval_reasonPart?, if_neg fun fits => apart (fits_eq_true.1 fits)]
      exact why
  -- a field is to blame, the first that is admitted and does not fit
  · have fails := first.fails
    rw [eval_blameIndexedField?] at found fails
    rw [found]
    split
    · exact .indexed fields hj (first.congr fun _ => eval_blameIndexedField?_eq_none_iff)
    · next h => exact absurd (if_neg h) fails

end

/-- **WHY TWO OBJECTS DO NOT FIT.** -/
theorem objectReason {o p : ObjectId} (hs : v.store.node? s = some (.object o))
    (ht : v.store.node? t = some (.object p)) (fs : v.store.LazyFree s) (ft : v.store.LazyFree t)
    (apart : ¬ v.Fits s t) (below : Handle → Handle → Reason) :
    v.ObjectReason s t (v.store.object o) (v.store.object p) ((v.blame s t).toReason below s t) := by
  have unfit : ¬ (v.FieldsFit (v.store.object o) (v.store.object p) ∧
      v.IndexesFit (v.store.object o) (v.store.object p)) := fun fit =>
    apart ((fits_objects_iff hs ht fs ft).2 (.inr fit))
  have rule : v.blame s t = ((Query.blameObject? s (v.store.object o) t (v.store.object p)).eval v
      v.fits v.fits).getD (.reason (.mismatch s t)) := blame_of_rule hs ht rfl rfl rfl
  rw [rule]
  unfold Query.blameObject?
  rw [Query.eval_orBlame]
  -- the fields of the target come first, its index signature behind them
  rcases v.eval_findSomeM? (Query.blameField? s (v.store.object o) t) (v.store.object p).fields with
    ⟨all, found⟩ | ⟨k, f, first, found⟩
  · have fields : ∀ f ∈ (v.store.object p).fields, ¬ v.Rejects (v.store.object o) f :=
      fun f hf => eval_blameField?_eq_none_iff.1 (all f hf)
    rw [found, Option.none_or]
    cases hj : (v.store.object p).index with
    | none =>
      refine objectReason_mismatch unfit fields (fun j h => ?_) (fun i j _ h => ?_)
      · rw [hj] at h; cases h
      · rw [hj] at h; cases h
    | some j => exact objectReason_of_index unfit fields hj below
  · rw [found]
    have names := first.congr fun _ => eval_blameField?_eq_none_iff
    cases hb : (Query.blameField? s (v.store.object o) t f).eval v v.fits v.fits with
    | none => exact absurd hb first.fails
    | some b => exact .field names (fieldReason_of_eval below hb)

end

end View

/-! ## §3. What is explained -/

/-- **WHY OBJECTS ARE EXPLAINED NOT TO FIT.**  Of two objects without lazy nodes that are found to be
unrelated, the first field of the target is named that is rejected for what the source declares
under its name.  Only where there is none the index signature of the target is, with the first field
of the source that does not fit it, or with the index signature of the source.  If no field is
rejected for what it is read as through the index signature of the source, that covers all cases, and
index signatures are only named where their keys overlap. -/
theorem explained_object (run : Runner ρ) (policy : Policy) (σ : Store ρ) (s t : Handle)
    (o p : ObjectId) (hs : σ.node? s = some (.object o)) (ht : σ.node? t = some (.object p))
    (fs : σ.LazyFree s) (ft : σ.LazyFree t)
    (unrelated : (Store.assignable run policy s t σ).1 = false)
    (within : (Inquire.explain? run s t ⟨σ, .new policy⟩).2.checker.exceeded = false) :
    ∃ reason, (Store.explain? run policy s t σ).1 = some reason ∧
      (View.of run σ policy.flags).ObjectReason s t (σ.object o) (σ.object p) reason := by
  obtain ⟨apart, below, explained⟩ := explain?_of_lazyFree fs ft unrelated within
  exact ⟨_, explained, View.objectReason (v := .of run σ policy.flags) hs ht fs ft apart below⟩

/-- The pair of which there is no more to say than that it does not fit. -/
def Reason.mismatch? : Reason → Option Pair
  | .mismatch s t => some (s, t)
  | _ => none

/-- An object that holds strings under all keys, and one that may have a number under one. -/
def heldUnderKeys : Listing Handle where
  nodes := [.object ⟨0⟩, .object ⟨1⟩]
  objects := [{ index := some ⟨Intrinsic.string.handle, Intrinsic.string.handle⟩ },
    { fields := [{ name := ⟨64⟩, type := Intrinsic.number.handle, optional := true }] }]

/-- The field is rejected for what it is read as, and the explanation does not name it. -/
theorem explained_heldUnderKeys :
    let σ := heldUnderKeys.store
    (Store.assignable pure {} ⟨13⟩ ⟨14⟩ σ).1 = false ∧
      (Store.explain? pure {} ⟨13⟩ ⟨14⟩ σ).1.bind Reason.mismatch? = some (⟨13⟩, ⟨14⟩) ∧
      ∃ f ∈ (σ.object ⟨1⟩).fields, (View.of pure σ {}).RejectsRead (σ.object ⟨0⟩) f := by
  intro σ
  have unrelated : (Store.relate pure {} .assignable ⟨13⟩ ⟨14⟩ σ).1.related = false := by
    rw [relate_eq_finding]
    decide +kernel
  obtain ⟨whole, limit⟩ := explain?_eq_snapshot pure {} σ [] ⟨13⟩ ⟨14⟩
  have value : (Store.explain? pure {} ⟨13⟩ ⟨14⟩ σ).1.bind Reason.mismatch?
      = some (⟨13⟩, ⟨14⟩) := by
    change (Store.explain? pure {} ⟨13⟩ ⟨14⟩ σ).1 = _ at whole
    rw [whole]
    decide +kernel
  obtain ⟨reason, explained, why⟩ := explained_object pure {} σ ⟨13⟩ ⟨14⟩ ⟨0⟩ ⟨1⟩
    (by decide +kernel) (by decide +kernel) ⟨2, by decide +kernel⟩ ⟨2, by decide +kernel⟩ unrelated
    (limit.trans (by decide +kernel))
  refine ⟨unrelated, value, ?_⟩
  -- every other reason for an object names a part, and this one is bare
  rw [explained] at value
  cases why with
  | field first names => cases names <;> cases value
  | indexed fields index first => cases value
  | index fields index own under apart overlap => cases value
  | whole fields hf read => exact ⟨_, hf, read⟩

end Assignability
