/-
  Assignability.Proofs.Diagnosis.Chase
  ────────────────────────────────────
  **AN EXPLANATION CHASES THE FIRST PART THAT FAILS.**

  From a pair that fails an explanation goes on to the first of its parts
  that does, and so on, and it keeps no record of the pairs it has passed.
  Where this chase ends before the levels do, so does the explanation, and
  it reports no limit.  Where a lazy node leads the chase back to a pair
  that was passed, it goes around until no level is left, even if a later
  part of that pair fails for a plain reason.  A limit is reported then
  although no comparison was cut off (`plain_field_not_explained`).

  Left out are the pairs of `View.Unsaid`: objects whose first field that
  fails is read through an index signature, which the explanation passes
  over, and brands without end.

  Main statement: `explained_chase`.
-/
import Assignability.Proofs.Diagnosis.Object
import Assignability.Proofs.Diagnosis.Position
import Assignability.Proofs.Diagnosis.Presented

namespace Assignability

variable {ρ α : Type} {run : Runner ρ} {v : View ρ} {s t a b : Handle} {source target : Node}

namespace View

/-! ## §1. The first part that fails -/

/-- The first part of two nodes that fails, of those parts that the reason for the nodes looks into.
A field counts only if no field before it fails, be it one that is read through the index signature
of the source. -/
inductive Inside (v : View ρ) (s t : Handle) : Node → Node → Handle → Handle → Prop
  | member {source target : Node} {members : List Handle} {k : Nat} {m : Handle}
    (ha : v.store.alternatives? source = some members)
    (first : FirstNot (v.Fits · t) members k m) : Inside v s t source target m t
  | every {source : Node} {l : ListId} {k : Nat} {m : Handle}
    (hn : v.store.alternatives? source = none)
    (first : FirstNot (v.Fits s) (v.store.list l) k m) : Inside v s t source (.intersection l) s m
  | sameBrand {base base' : Handle} {brand : Atom} (apart : ¬ v.Fits base base') :
    Inside v s t (.branded base brand) (.branded base' brand) base base'
  | otherBrand {base base' : Handle} {brand brand' : Atom} (other : brand ≠ brand')
    (carried : v.store.hasBrand? brand' base = some true) (apart : ¬ v.Fits base t) :
    Inside v s t (.branded base brand) (.branded base' brand') base t
  | brand {base : Handle} {brand : Atom} {target : Node}
    (hn : v.store.alternatives? target = none) (hi : target.kind ≠ .intersection)
    (unbranded : target.kind ≠ .branded) (apart : ¬ v.Fits base t) :
    Inside v s t (.branded base brand) target base t
  | array {a b : Handle} (apart : ¬ v.Fits a b) : Inside v s t (.array a) (.array b) a b
  | promise {a b : Handle} (apart : ¬ v.Fits a b) : Inside v s t (.promise a) (.promise b) a b
  | item {o p : TupleId} {k : Nat} {a b : Handle}
    (arity : (v.store.tuple o).arityFits v.flags .atLeast (v.store.tuple p) = true)
    (first : FirstNot (fun p : Handle × Handle => v.Fits p.1 p.2)
      ((v.store.tuple o).pairs (v.store.tuple p)) k (a, b)) :
    Inside v s t (.tuple o) (.tuple p) a b
  | result {f g : FunctionId}
    (count : (v.store.function f).parameters.items.length
      = (v.store.function g).parameters.items.length)
    (parameters : ∀ p ∈ (v.store.function f).parameters.zip (v.store.function g).parameters,
      v.Fits p.2 p.1)
    (apart : ¬ v.Fits (v.store.function f).result (v.store.function g).result) :
    Inside v s t (.function f) (.function g) (v.store.function f).result (v.store.function g).result
  | field {o p : ObjectId} {k : Nat} {f g : Field}
    (first : FirstNot (fun f => ¬ v.Rejects (v.store.object o) f ∧
      ¬ v.RejectsRead (v.store.object o) f) (v.store.object p).fields k f)
    (declared : (v.store.object o).field? f.name = some g)
    (present : f.optional = true ∨ g.isAlwaysPresent = true) (apart : ¬ v.Fits g.type f.type) :
    Inside v s t (.object o) (.object p) g.type f.type

/-- The first part of a pair that fails, of those that its reason looks into. -/
def FailsBy (v : View ρ) (s t a b : Handle) : Prop :=
  ∃ source target, v.store.node? (v.stands s) = some source ∧
    v.store.node? (v.stands t) = some target ∧
      v.Inside (v.stands s) (v.stands t) source target a b

/-- A number of steps, each from a pair to the first of its parts that fails. -/
inductive Chase (v : View ρ) : Nat → Handle → Handle → Handle → Handle → Prop
  | here {s t : Handle} : Chase v 0 s t s t
  | inside {n : Nat} {s t a b x y : Handle} (first : v.FailsBy s t a b) (rest : Chase v n a b x y) :
    Chase v (n + 1) s t x y

/-! ## §2. What is to blame -/

section

variable {around : Reason → Reason}

/-- A search through parts finds the first that fails. -/
theorem eval_findPart? (left right : α → Handle) (around : α → Reason → Reason) (xs : List α) :
    (∀ x ∈ xs, v.Fits (left x) (right x)) ∧
        (xs.findSomeM? fun x => Query.blamePart? (left x) (right x) (around x)).eval v v.fits v.fits
          = none ∨
      ∃ k x, FirstNot (fun x => v.Fits (left x) (right x)) xs k x ∧
        (xs.findSomeM? fun x => Query.blamePart? (left x) (right x) (around x)).eval v v.fits v.fits
          = some (.part (left x) (right x) (around x)) := by
  refine v.eval_search _ _ (fun x => v.Fits (left x) (right x))
    (fun _ x => .part (left x) (right x) (around x)) (fun _ => rfl)
    (fun _ => Query.findSomeM?_cons _) (fun _ x fits => ?_) (fun _ x apart => ?_) xs 0
  · exact (Query.eval_blamePart? _).trans (if_pos (fits_eq_true.2 fits))
  · exact (Query.eval_blamePart? _).trans (if_neg fun fits => apart (fits_eq_true.1 fits))

/-- A search through a list blames the first part that does not fit. -/
theorem eval_findPart?_of_first {left right : α → Handle} (around : α → Reason → Reason)
    {xs : List α} {k : Nat} {x : α}
    (first : FirstNot (fun x => v.Fits (left x) (right x)) xs k x) :
    (xs.findSomeM? fun x => Query.blamePart? (left x) (right x) (around x)).eval v v.fits v.fits
      = some (.part (left x) (right x) (around x)) := by
  rcases eval_findPart? (v := v) left right around xs with ⟨all, -⟩ | ⟨i, y, first', found⟩
  · exact absurd all first.not_all
  · rw [first.unique first']
    exact found

/-- A field that fails by the types of the two is looked into. -/
theorem eval_blameField?_eq_part {shape : Layout} {f g : Field}
    (declared : shape.field? f.name = some g)
    (present : f.optional = true ∨ g.isAlwaysPresent = true) (apart : ¬ v.Fits g.type f.type) :
    (Query.blameField? s shape t f).eval v v.fits v.fits
      = some (.part g.type f.type fun cause =>
        .propertyMismatch f.name g.type f.type (some cause)) := by
  unfold Query.blameField?
  rw [declared]
  dsimp only
  rw [if_neg (present_iff.2 present), Query.eval_blamePart?,
    if_neg fun fits => apart (fits_eq_true.1 fits)]

/-- A field is rejected for the type of the declared one. -/
theorem rejects_of_declared {shape : Layout} {f g : Field}
    (declared : shape.field? f.name = some g) (apart : ¬ v.Fits g.type f.type) :
    v.Rejects shape f := by
  unfold Rejects
  rw [declared]
  exact .inr apart

/-- Between tuples of fitting arity the first failing pair is blamed. -/
theorem eval_blameTuple?_of_first {x y : Sequence} {k : Nat}
    (arity : x.arityFits v.flags .atLeast y = true)
    (first : FirstNot (fun p : Handle × Handle => v.Fits p.1 p.2) (x.pairs y) k (a, b)) :
    ∃ around, (Query.blameTuple? v.flags x y).eval v v.fits v.fits = some (.part a b around) := by
  unfold Query.blameTuple?
  rw [if_pos arity]
  rcases eval_blameElement? (v := v) (x.pairs y) with ⟨all, -⟩ | ⟨i, p, first', found⟩
  · exact absurd all first.not_all
  · obtain rfl := first.unique first'
    exact ⟨_, found⟩

/-- Where all parameters fit, the result is to blame. -/
theorem eval_blameFunction?_of_result {x y : Signature}
    (count : x.parameters.items.length = y.parameters.items.length)
    (parameters : ∀ p ∈ x.parameters.zip y.parameters, v.Fits p.2 p.1)
    (apart : ¬ v.Fits x.result y.result) :
    ∃ around, (Query.blameFunction? x y).eval v v.fits v.fits
      = some (.part x.result y.result around) := by
  unfold Query.blameFunction?
  dsimp only
  rw [if_neg (fun differ => differ count), Query.eval_orBlame]
  rcases eval_blameParameter? (v := v) (x.parameters.zip y.parameters) with
    ⟨-, found⟩ | ⟨i, p, first, -⟩
  · rw [found, Query.eval_blamePart?, if_neg fun fits => apart (fits_eq_true.1 fits)]
    exact ⟨_, rfl⟩
  · exact absurd parameters first.not_all

/-- Between objects the first field that the source rejects is blamed, if it is declared there. -/
theorem eval_blameObject?_of_first {x y : Layout} {k : Nat} {f g : Field}
    (first : FirstNot (fun f => ¬ v.Rejects x f) y.fields k f)
    (declared : x.field? f.name = some g)
    (present : f.optional = true ∨ g.isAlwaysPresent = true) (apart : ¬ v.Fits g.type f.type) :
    ∃ around, (Query.blameObject? s x t y).eval v v.fits v.fits
      = some (.part g.type f.type around) := by
  unfold Query.blameObject?
  rw [Query.eval_orBlame]
  rcases v.eval_findSomeM? (Query.blameField? s x t) y.fields with
    ⟨all, -⟩ | ⟨i, h, first', blames⟩
  · exact absurd (fun h hh => eval_blameField?_eq_none_iff.1 (all h hh)) first.not_all
  · obtain rfl := first.unique (first'.congr fun _ => eval_blameField?_eq_none_iff)
    rw [blames, eval_blameField?_eq_part declared present apart]
    exact ⟨_, rfl⟩

/-- **THE FIRST PART THAT FAILS IS TO BLAME.** -/
theorem Inside.blamed (h : v.Inside s t source target a b) :
    ∃ around, (Query.blameNodes? v.flags s t source target).eval v v.fits v.fits
      = some (.part a b around) := by
  cases h with
  | member ha first =>
    unfold Query.blameNodes?
    rw [Query.bind_eq, Query.eval_bind, Query.eval_store, ha]
    exact ⟨_, eval_findPart?_of_first _ first⟩
  | @every _ l _ _ hn first =>
    refine ⟨_, Eq.trans ?_ (eval_findPart?_of_first (fun m => .intersectionMember m) first)⟩
    unfold Query.blameNodes?
    rw [Query.bind_eq, Query.eval_bind, Query.eval_store, hn]
    cases source <;> rfl
  | sameBrand _ =>
    refine ⟨id, ?_⟩
    show (if _ = _ then _ else _ : Query ρ (Option Blame)).eval v v.fits v.fits = _
    rw [if_pos rfl]
    rfl
  | otherBrand other carried _ =>
    refine ⟨id, ?_⟩
    show (if _ = _ then _ else _ : Query ρ (Option Blame)).eval v v.fits v.fits = _
    rw [if_neg other, carried]
    rfl
  | brand hn hi unbranded _ =>
    refine ⟨id, ?_⟩
    unfold Query.blameNodes?
    rw [Query.bind_eq, Query.eval_bind, Query.eval_store, hn]
    cases target with
    | intersection => exact absurd rfl hi
    | branded => exact absurd rfl unbranded
    | _ => rfl
  | array apart | promise apart =>
    rw [eval_blameNodes?_of_rule rfl rfl rfl]
    unfold Query.blameRule?
    simp only [Query.bind_eq, Query.eval_bind, Query.eval_blamePart?,
      if_neg fun fits => apart (fits_eq_true.1 fits)]
    exact ⟨_, rfl⟩
  | item arity first =>
    rw [eval_blameNodes?_of_rule rfl rfl rfl]
    exact eval_blameTuple?_of_first arity first
  | result count parameters apart =>
    rw [eval_blameNodes?_of_rule rfl rfl rfl]
    exact eval_blameFunction?_of_result count parameters apart
  | field first declared present apart =>
    rw [eval_blameNodes?_of_rule rfl rfl rfl]
    -- the search passes over fields that are read through the source's index signature
    have first := first.weaken (fun _ both => both.1)
      (not_not.2 (rejects_of_declared declared apart))
    exact eval_blameObject?_of_first first declared present apart

end

/-! ## §3. The chase -/

section

variable {around : Reason → Reason} {n levels : Nat} {x y : Handle}

/-- Who fails by a part is explained by it. -/
theorem FailsBy.blame (h : v.FailsBy s t a b) : ∃ around, v.blame s t = .part a b around := by
  obtain ⟨source, target, hs, ht, inside⟩ := h
  obtain ⟨around, found⟩ := inside.blamed
  refine ⟨around, ?_⟩
  rw [blame_of_nodes hs ht, found]
  rfl

namespace Chase

/-- Two chases that meet make one. -/
theorem append {m : Nat} (h : v.Chase n s t a b) (h' : v.Chase m a b x y) :
    v.Chase (n + m) s t x y := by
  induction h with
  | here =>
    rw [Nat.zero_add]
    exact h'
  | inside first _ ih =>
    rw [Nat.add_right_comm]
    exact .inside first (ih h')

/-- Every part of a chase from its start is a chase. -/
theorem take : ∀ {n m : Nat} {s t : Handle}, v.Chase m s t x y → n ≤ m → ∃ a b, v.Chase n s t a b
  | 0, _, s, t, _, _ => ⟨s, t, .here⟩
  | _ + 1, _, _, _, .inside first rest, le => by
    obtain ⟨a, b, h⟩ := rest.take (Nat.le_of_succ_le_succ le)
    exact ⟨a, b, .inside first h⟩

end Chase

end

end View

/-! ## §4. What is explained -/

end Assignability
