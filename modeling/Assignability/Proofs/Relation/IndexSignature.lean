/-
  Assignability.Proofs.Relation.IndexSignature
  ────────────────────────────────────────────
  **WHEN INDEX SIGNATURES ARE COMPARED.**

  An index signature of the target bounds that of the source where the
  keys of the two overlap, and they are taken to overlap where one key
  type fits the other.  Keys that have some names in common but neither of
  which fits the other are not compared: what the source holds under the
  common names is then not looked at.

  Main statements:
    • `fits_objects_iff` — when an object fits another,
    • `relate_objects_iff` — and so the checker finds.
-/
import Assignability.Proofs.Checker.Finding
import Assignability.Proofs.Checker.Snapshot
import Assignability.Proofs.Store.Listing

namespace Assignability

variable {ρ : Type}

namespace View

variable {v : View ρ} {s t : Handle} {source target : Layout}

/-! ## §1. Keys -/

/-- Whether a name is one of the keys of a key type. -/
def admits (v : View ρ) (key : Handle) (name : Atom) : Bool :=
  (Query.admits key name).eval v (fun _ _ => false) (fun _ _ => false)

/-- No answer matters to whether a name is a key. -/
theorem eval_admits (keys fits : Handle → Handle → Bool) (key : Handle) (name : Atom) :
    (Query.admits key name).eval v keys fits = v.admits key name := by
  have quiet : (Query.admits key name : Query ρ Bool).Quiet v
      ⟨fun _ _ => False, fun _ _ => False, fun _ => True⟩ fun _ => True :=
    Query.quiet_admits fun _ _ => trivial
  exact quiet.eval_congr fun _ _ h => h.elim

/-- Key types overlap where one fits the other. -/
theorem eval_overlap (keys fits : Handle → Handle → Bool) (a b : Handle) :
    (Query.overlap a b).eval v keys fits = (keys a b || keys b a) := by
  show ((if (Answer.ofBool (keys a b)).isTrue = true then pure true
    else Query.askKeys b a fun backward => pure backward.isTrue).eval v keys fits) = _
  rw [Answer.isTrue_ofBool]
  cases keys a b with
  | true => rfl
  | false => exact Answer.isTrue_ofBool _

/-! ## §2. Objects -/

/-- The declared fields of two objects fit, those of the target by what the source has under their
names, those of the source by the index signature of the target. -/
structure FieldsFit (v : View ρ) (source target : Layout) : Prop where
  declared : ∀ f ∈ target.fields, ∀ g, source.field? f.name = some g →
    (f.optional = true ∨ g.isAlwaysPresent = true) ∧ v.Fits g.type f.type
  undeclared : ∀ f ∈ target.fields, source.field? f.name = none → f.optional = true ∧
    ∀ i, source.index = some i → v.admits i.key f.name = true → v.Fits i.value f.type
  under : ∀ j, target.index = some j → ∀ f ∈ source.fields,
    v.admits j.key f.name = true → v.Fits f.type j.value

/-- Where one key type of two index signatures fits the other, so do their values. -/
def IndexesFit (v : View ρ) (source target : Layout) : Prop :=
  ∀ i j, source.index = some i → target.index = some j →
    v.Fits i.key j.key ∨ v.Fits j.key i.key → v.Fits i.value j.value

/-- For the largest relation, the rule of a field compares it with the declared one or reads it
through the index signature. -/
theorem isTrue_eval_field (f : Field) :
    ((Query.field source f).eval v v.keysFit v.fits).isTrue = true
      ↔ (∀ g, source.field? f.name = some g →
          (f.optional = true ∨ g.isAlwaysPresent = true) ∧ v.Fits g.type f.type) ∧
        (source.field? f.name = none → f.optional = true ∧
          ∀ i, source.index = some i → v.admits i.key f.name = true →
            v.Fits i.value f.type) := by
  unfold Query.field
  -- a declared field is compared; an undeclared one may be read through the index signature
  cases hf : source.field? f.name with
  | some g =>
    dsimp only
    cases ho : f.optional <;> cases hp : g.isAlwaysPresent <;> simp [hp]
  | none =>
    dsimp only
    cases ho : f.optional with
    | false => simp
    | true =>
      cases hi : source.index with
      | none => simp
      | some i =>
        cases ha : v.admits i.key f.name <;> simp [eval_admits, ha]

/-- A source field is compared with an index signature that admits its name. -/
theorem isTrue_eval_fieldUnder {j : IndexSignature} (f : Field) :
    ((Query.fieldUnder j f).eval v v.keysFit v.fits).isTrue = true
      ↔ (v.admits j.key f.name = true → v.Fits f.type j.value) := by
  unfold Query.fieldUnder
  cases ha : v.admits j.key f.name <;> simp [eval_admits, ha]

/-- Two index signatures are compared by value where their keys overlap. -/
theorem isTrue_eval_indexUnder {j : IndexSignature} {index : Option IndexSignature}
    (keys : ∀ i, index = some i →
      v.keysFit i.key j.key = v.fits i.key j.key ∧ v.keysFit j.key i.key = v.fits j.key i.key) :
    ((Query.indexUnder j index).eval v v.keysFit v.fits).isTrue = true
      ↔ ∀ i, index = some i → v.Fits i.key j.key ∨ v.Fits j.key i.key →
        v.Fits i.value j.value := by
  unfold Query.indexUnder
  cases hi : index with
  | none => simp
  | some i =>
    -- the keys are compared on their own, which without lazy nodes comes to the same
    obtain ⟨forward, backward⟩ := keys i hi
    have overlap : (v.fits i.key j.key || v.fits j.key i.key) = true
        ↔ v.Fits i.key j.key ∨ v.Fits j.key i.key := by simp
    simp only [Query.bind_eq, Query.eval_bind, eval_overlap, forward, backward,
      Option.some.injEq, forall_eq', ← overlap]
    cases v.fits i.key j.key || v.fits j.key i.key <;> simp

/-- An object is compared with an index signature by its fields and by its own. -/
theorem isTrue_eval_objectUnder {j : IndexSignature}
    (keys : ∀ i, source.index = some i →
      v.keysFit i.key j.key = v.fits i.key j.key ∧ v.keysFit j.key i.key = v.fits j.key i.key) :
    ((Query.objectUnder j source).eval v v.keysFit v.fits).isTrue = true
      ↔ (∀ f ∈ source.fields, v.admits j.key f.name = true → v.Fits f.type j.value) ∧
        ∀ i, source.index = some i → v.Fits i.key j.key ∨ v.Fits j.key i.key →
          v.Fits i.value j.value := by
  unfold Query.objectUnder
  rw [Query.isTrue_eval_andThen, Bool.and_eq_true, Query.isTrue_eval_every, List.all_eq_true,
    isTrue_eval_indexUnder keys]
  simp only [isTrue_eval_fieldUnder]

/-- **WHEN AN OBJECT FITS ANOTHER** that is not itself: where its fields fit, and its index
signature if the keys of the two are comparable. -/
theorem fits_objects_iff {o p : ObjectId} (hs : v.store.node? s = some (.object o))
    (ht : v.store.node? t = some (.object p)) (fs : v.store.LazyFree s) (ft : v.store.LazyFree t) :
    v.Fits s t ↔ s = t ∨ v.FieldsFit (v.store.object o) (v.store.object p) ∧
      v.IndexesFit (v.store.object o) (v.store.object p) := by
  have atOnce : v.store.atOnce? v.flags s t = if s = t then some true else none := by
    have h₁ : t ≠ .unknown := ne_handle_of_node ht (fun h => nomatch h) .unknown
    have h₂ : t ≠ .any := ne_handle_of_node ht (fun h => nomatch h) .any
    rw [atOnce?_of_node hs (fun h => nomatch h) fun h => nomatch h]
    simp [h₁, h₂]
  by_cases apart : s = t
  · exact iff_of_true ((fits_of_atOnce? (by rw [atOnce, if_pos apart])).2 rfl) (.inl apart)
  have notAtOnce : v.store.atOnce? v.flags s t = none := by rw [atOnce, if_neg apart]
  have rule : (Query.nodes v.flags s t (.object o) (.object p)).eval v v.keysFit v.fits
      = (Query.objects (v.store.object o) (v.store.object p)).eval v v.keysFit v.fits := by
    unfold Query.nodes
    rw [Query.bind_eq, Query.eval_bind, Query.eval_store]
    show (Query.byRule v.flags .object _ _).eval v v.keysFit v.fits = _
    unfold Query.byRule
    rw [Query.bind_eq, Query.eval_bind, Query.eval_store]
  -- the key types are parts, so they have no lazy nodes either
  have sourceParts : ∀ g ∈ (v.store.object o).parts, v.store.LazyFree g := fun g hg =>
    fs.component hs hg
  have targetParts : ∀ g ∈ (v.store.object p).parts, v.store.LazyFree g := fun g hg =>
    ft.component ht hg
  rw [or_iff_right apart, fits_iff_nodes notAtOnce hs ht rfl rfl, rule]
  unfold Query.objects
  rw [Query.isTrue_eval_andThen, Bool.and_eq_true, Query.isTrue_eval_every, List.all_eq_true]
  simp only [isTrue_eval_field]
  cases hj : (v.store.object p).index with
  | none =>
    constructor
    · rintro ⟨h, -⟩
      refine ⟨⟨fun f hf => (h f hf).1, fun f hf => (h f hf).2, fun j h' => ?_⟩, fun i j _ h' => ?_⟩
      · rw [hj] at h'; cases h'
      · rw [hj] at h'; cases h'
    · rintro ⟨h, -⟩
      exact ⟨fun f hf => ⟨h.declared f hf, h.undeclared f hf⟩, rfl⟩
  | some j =>
    have keys : ∀ i, (v.store.object o).index = some i →
        v.keysFit i.key j.key = v.fits i.key j.key ∧
          v.keysFit j.key i.key = v.fits j.key i.key := by
      intro i hi
      have fi := isFinite_of_lazyFree (sourceParts _ (Query.key_mem_parts hi))
      have fj := isFinite_of_lazyFree (targetParts _ (Query.key_mem_parts hj))
      exact ⟨keysFit_eq_fits_of_isFinite fi fj, keysFit_eq_fits_of_isFinite fj fi⟩
    dsimp only
    rw [isTrue_eval_objectUnder keys]
    constructor
    · rintro ⟨h, under, index⟩
      refine ⟨⟨fun f hf => (h f hf).1, fun f hf => (h f hf).2, fun j' h' => ?_⟩,
        fun i j' hi h' => ?_⟩
      · obtain rfl := Option.some.inj (hj.symm.trans h')
        exact under
      · obtain rfl := Option.some.inj (hj.symm.trans h')
        exact index i hi
    · rintro ⟨h, index⟩
      exact ⟨fun f hf => ⟨h.declared f hf, h.undeclared f hf⟩, h.under j hj,
        fun i hi => index i j hi hj⟩

end View

/-! ## §3. What the checker finds -/

/-- **WHEN INDEX SIGNATURES ARE COMPARED.**  An object without lazy nodes is found to fit itself, and
another where its fields fit and, if one key type of the index signatures fits the other, the values do.
Index signatures whose key types are not comparable are not compared, whatever names they share. -/
theorem relate_objects_iff (run : Runner ρ) (policy : Policy) (σ : Store ρ) (s t : Handle)
    (o p : ObjectId) (hs : σ.node? s = some (.object o)) (ht : σ.node? t = some (.object p))
    (fs : σ.LazyFree s) (ft : σ.LazyFree t)
    (within : (Store.relate run policy .assignable s t σ).1.exceeded = false) :
    (Store.relate run policy .assignable s t σ).1.related = true
      ↔ s = t ∨ (View.of run σ policy.flags).FieldsFit (σ.object o) (σ.object p) ∧
        (View.of run σ policy.flags).IndexesFit (σ.object o) (σ.object p) := by
  have objects := View.fits_objects_iff (v := .of run σ policy.flags) hs ht fs ft
  have forward : (View.of run σ policy.flags).Relates .assignable s t
      ↔ (View.of run σ policy.flags).Fits s t := and_iff_left fun hk => by cases hk
  rw [relate_iff fs.atRest ft.atRest within, forward]
  exact objects

/-- An object that holds strings under two keys, and one that holds numbers under two keys; they
have one key in common. -/
def commonKey : Listing Handle where
  nodes := [.literal (.string ⟨64⟩), .literal (.string ⟨128⟩), .literal (.string ⟨192⟩),
    .union ⟨0⟩, .object ⟨0⟩, .union ⟨1⟩, .object ⟨1⟩]
  lists := [[⟨13⟩, ⟨14⟩], [⟨14⟩, ⟨15⟩]]
  objects := [{ index := some ⟨⟨16⟩, Intrinsic.string.handle⟩ },
    { index := some ⟨⟨18⟩, Intrinsic.number.handle⟩ }]

/-- The objects are not compared by what they hold under the common key. -/
theorem indexesFit_commonKey :
    (View.of pure commonKey.store {}).admits ⟨16⟩ ⟨128⟩ = true ∧
      (View.of pure commonKey.store {}).admits ⟨18⟩ ⟨128⟩ = true ∧
      (Store.relate pure {} .assignable Intrinsic.string.handle Intrinsic.number.handle
        commonKey.store).1.related = false ∧
      (View.of pure commonKey.store {}).IndexesFit (commonKey.store.object ⟨0⟩)
        (commonKey.store.object ⟨1⟩) := by
  have found : (Store.relate pure {} .assignable ⟨17⟩ ⟨19⟩ commonKey.store).1
      = ⟨.assignable, true, false⟩ := by
    rw [relate_eq_finding]
    decide +kernel
  have apart : (Store.relate pure {} .assignable Intrinsic.string.handle Intrinsic.number.handle
      commonKey.store).1.related = false := by
    rw [relate_eq_finding]
    decide +kernel
  have hs : commonKey.store.node? ⟨17⟩ = some (.object ⟨0⟩) := by decide +kernel
  have ht : commonKey.store.node? ⟨19⟩ = some (.object ⟨1⟩) := by decide +kernel
  have fs : commonKey.store.LazyFree ⟨17⟩ := ⟨3, by decide +kernel⟩
  have ft : commonKey.store.LazyFree ⟨19⟩ := ⟨3, by decide +kernel⟩
  have related := (relate_objects_iff pure {} commonKey.store ⟨17⟩ ⟨19⟩ ⟨0⟩ ⟨1⟩ hs ht fs ft
    (by rw [found])).1 (by rw [found])
  refine ⟨by decide +kernel, by decide +kernel, apart, ?_⟩
  exact (related.resolve_left (by decide)).2

end Assignability
