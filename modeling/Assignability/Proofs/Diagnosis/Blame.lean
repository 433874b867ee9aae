/-
  Assignability.Proofs.Diagnosis.Blame
  ────────────────────────────────────
  **THE BLAME IS RIGHT.**

  A reason presents pairs as ones that do not fit: its own and those of
  the reasons in it (`Reason.presented`).  Where two nodes do not fit,
  what is found to blame for that presents such pairs only, and the part
  that it names does not fit either: one lemma for each place where blame
  is looked for.  Level by level that makes the whole explanation right.

  Main statement: `isRight_reasonWithin`.
-/
import Assignability.Proofs.Diagnosis.Right
import Assignability.Proofs.Relation.Members

namespace Assignability

variable {ρ : Type} {v : View ρ} {s t : Handle}

/-! ## §1. What a reason presents -/

namespace Reason

mutual

/-- The pairs that a reason presents as unrelated, with the relation that is denied of them. -/
def presented : Reason → List (Question × Pair)
  | missingProperty _ s t => [(.assignable, s, t)]
  | propertyMismatch _ s t cause => (.assignable, s, t) :: presentedBy cause
  | optionalProperty _ => []
  | indexMismatch _ s t => [(.assignable, s, t)]
  | tupleArity _ _ => []
  | tupleElement _ s t cause => (.assignable, s, t) :: presentedBy cause
  | elementMismatch s t cause => (.assignable, s, t) :: presentedBy cause
  | invariantParameter s t => [(.identical, s, t)]
  | parameterCount _ _ => []
  -- parameters are compared against the direction of the functions
  | parameterMismatch _ s t => [(.assignable, t, s)]
  | returnMismatch s t cause => (.assignable, s, t) :: presentedBy cause
  | noUnionMember s members => members.map fun m => (.assignable, s, m)
  | unionMember m t cause => (.assignable, m, t) :: presented cause
  | noIntersectionMember s t => [(.assignable, s, t)]
  | intersectionMember _ cause => presented cause
  | brandMismatch _ _ => []
  | limitExceeded s t => [(.assignable, s, t)]
  | mismatch s t => [(.assignable, s, t)]

/-- The pairs that the reason for a part presents, if there is one. -/
def presentedBy : Option Reason → List (Question × Pair)
  | none => []
  | some cause => presented cause

end

/-- None of the pairs that a reason presents is related. -/
def IsRight (v : View ρ) (r : Reason) : Prop :=
  ∀ p ∈ r.presented, ¬ v.Relates p.1 p.2.1 p.2.2

end Reason

/-- What is to blame presents no related pair, and its part does not fit. -/
def Blame.IsRight (v : View ρ) : Blame → Prop
  | .reason r => r.IsRight v
  | .part s t around => ¬ v.Fits s t ∧ ∀ r : Reason, r.IsRight v → (around r).IsRight v
  | .endless => True

section

variable {reason cause : Reason} {pairs : List (Question × Pair)}

/-- A reason that presents no pair is right. -/
theorem Reason.isRight_nil (h : reason.presented = []) : reason.IsRight v := by
  intro p hp
  rw [h] at hp
  cases hp

/-- A reason of one pair, without further ones in it. -/
theorem Reason.isRight_single (h : reason.presented = [(.assignable, s, t)])
    (apart : ¬ v.Fits s t) : reason.IsRight v := by
  intro p hp
  rw [h] at hp
  obtain rfl := List.mem_singleton.1 hp
  exact fun related => apart related.1

/-- A reason that presents what the reason in it does. -/
theorem Reason.isRight_same (h : reason.presented = cause.presented) (inner : cause.IsRight v) :
    reason.IsRight v := by
  intro p hp
  rw [h] at hp
  exact inner p hp

/-- A reason of one pair, with the reason for that. -/
theorem Reason.isRight_cons (h : reason.presented = (.assignable, s, t) :: cause.presented)
    (apart : ¬ v.Fits s t) (inner : cause.IsRight v) : reason.IsRight v := by
  intro p hp
  rw [h] at hp
  rcases List.mem_cons.1 hp with rfl | hp
  · exact fun related => apart related.1
  · exact inner p hp

end

/-- A branded source fits what its base fits, and what has its brand where the bases fit. -/
theorem View.fits_branded {base : Handle} {brand : Atom} {target : Node}
    (hs : v.store.node? s = some (.branded base brand)) (ht : v.store.node? t = some target)
    (lt : target.isLazy = false) (hn : v.store.alternatives? target = none)
    (it : target.kind ≠ .intersection)
    (whole : (∀ b, target ≠ .branded b brand) → v.Fits base t)
    (bases : ∀ b, target = .branded b brand → v.Fits base b) : v.Fits s t :=
  fits_iff.2 (justifies_branded hs ht lt hn it (fun other => fits_eq_true.2 (whole other))
    fun b hb => fits_eq_true.2 (bases b hb))

/-- What stands for something in the store is there itself. -/
theorem View.has_of_stands (v : View ρ) {h : Handle} (has : v.store.Has (v.stands h)) :
    v.store.Has h := by
  cases hd : v.store.lazyId? h with
  | none =>
    rw [v.stands_of_not_lazy h hd] at has
    exact has
  | some d => exact Store.has_of_lazyId? hd

/-! ## §2. The part that fails -/

namespace Query

/-- A handle resolves to what it stands for in the view. -/
theorem eval_resolved (keys fits : Handle → Handle → Bool) (h : Handle) :
    (resolved h : Query ρ Handle).eval v keys fits = v.stands h := rfl

/-- What a query blames is right. -/
def Rightly (v : View ρ) (q : Query ρ (Option Blame)) : Prop :=
  ∀ b ∈ q.eval v v.fits v.fits, b.IsRight v

/-- To blame nothing is right. -/
theorem rightly_none : (done none : Query ρ _).Rightly v := nofun

/-- To blame at once is right where the blame is. -/
theorem rightly_some {b : Blame} (h : b.IsRight v) : (done (some b) : Query ρ _).Rightly v := by
  rintro _ ⟨⟩
  exact h

/-- A reason without pairs. -/
theorem rightly_nil {r : Reason} (h : r.presented = []) :
    (done (some (.reason r)) : Query ρ _).Rightly v := rightly_some (Reason.isRight_nil h)

/-- A part is blamed for not fitting, and what is said around its reason stays right. -/
theorem rightly_blamePart? {around : Reason → Reason}
    (inner : ¬ v.Fits s t → ∀ r : Reason, r.IsRight v → (around r).IsRight v) :
    (blamePart? s t around : Query ρ _).Rightly v := by
  show ∀ b ∈ (if (Answer.ofBool (v.fits s t)).isTrue then none else some (.part s t around)),
    Blame.IsRight v b
  rw [Answer.isTrue_ofBool]
  split
  · exact nofun
  · next apart =>
    rw [View.fits_eq_true] at apart
    rintro _ ⟨⟩
    exact ⟨apart, inner apart⟩

/-- The reason of one pair is given only where that pair does not fit. -/
theorem rightly_reasonPart? {r : Reason} (h : r.presented = [(.assignable, s, t)]) :
    (reasonPart? s t r : Query ρ _).Rightly v := by
  show ∀ b ∈ (if (Answer.ofBool (v.fits s t)).isTrue then none else some (.reason r)),
    Blame.IsRight v b
  rw [Answer.isTrue_ofBool]
  split
  · exact nofun
  · next apart =>
    rw [View.fits_eq_true] at apart
    rintro _ ⟨⟩
    exact Reason.isRight_single h apart

/-- If the first search is right and the second is, then so is the one after the other. -/
theorem Rightly.orBlame {q r : Query ρ (Option Blame)} (hq : q.Rightly v) (hr : r.Rightly v) :
    (q.orBlame r).Rightly v := by
  intro b hb
  unfold Query.orBlame at hb
  rw [bind_eq, eval_bind] at hb
  cases hq' : q.eval v v.fits v.fits with
  | none =>
    rw [hq'] at hb
    exact hr b hb
  | some blame =>
    rw [hq'] at hb
    exact hq b (by rw [hq']; exact hb)

/-- A search through a list is right where it is for each of the elements. -/
theorem Rightly.findSomeM? {α : Type} {q : α → Query ρ (Option Blame)} {xs : List α}
    (h : ∀ x ∈ xs, (q x).Rightly v) : (xs.findSomeM? q).Rightly v := by
  induction xs with
  | nil => exact rightly_none
  | cons x xs ih =>
    have tail := ih fun y hy => h y (List.mem_cons_of_mem x hy)
    rw [findSomeM?_cons]
    exact (h x List.mem_cons_self).orBlame tail

variable {source target : Layout} {index : IndexSignature}

/-- The blame for one field of the target is right. -/
theorem rightly_blameField? (apart : ¬ v.Fits s t) (f : Field) :
    (blameField? s source t f : Query ρ _).Rightly v := by
  unfold blameField?
  split
  · split
    · exact rightly_none
    · exact rightly_some (Reason.isRight_single rfl apart)
  · split
    · exact rightly_nil rfl
    · exact rightly_blamePart? fun apart _ inner => Reason.isRight_cons rfl apart inner

/-- A source field is blamed for an index signature that admits its name. -/
theorem rightly_blameIndexedField? (f : Field) :
    (blameIndexedField? index f : Query ρ _).Rightly v := by
  intro b hb
  unfold blameIndexedField? at hb
  rw [bind_eq, eval_bind] at hb
  split at hb
  · exact rightly_reasonPart? rfl b hb
  · cases hb

/-- The blame for an index signature of the target is right. -/
theorem rightly_blameIndex? : (blameIndex? source index : Query ρ _).Rightly v := by
  refine Rightly.orBlame (.findSomeM? fun f _ => rightly_blameIndexedField? f) ?_
  split
  · exact rightly_reasonPart? rfl
  · exact rightly_none

/-- The blame for an object, its fields before its index signature, is right. -/
theorem rightly_blameObject? (apart : ¬ v.Fits s t) :
    (blameObject? s source t target : Query ρ _).Rightly v := by
  refine Rightly.orBlame (.findSomeM? fun f _ => rightly_blameField? apart f) ?_
  split
  · exact rightly_blameIndex?
  · exact rightly_none

/-- The blame for an element is right, at whatever position the list begins. -/
theorem rightly_blameElement? (position : Nat) (pairs : List (Handle × Handle)) :
    (blameElement? position pairs : Query ρ _).Rightly v := by
  induction pairs generalizing position with
  | nil => exact rightly_none
  | cons p pairs ih =>
    refine Rightly.orBlame (rightly_blamePart? ?_) (ih _)
    exact fun apart _ inner => Reason.isRight_cons rfl apart inner

/-- The blame for a tuple, its arity before its elements, is right. -/
theorem rightly_blameTuple? {a b : Sequence} :
    (blameTuple? v.flags a b : Query ρ _).Rightly v := by
  unfold blameTuple?
  split
  · exact rightly_blameElement? 0 _
  · exact rightly_nil rfl

/-- Parameters are blamed for the opposite direction, and that is right too. -/
theorem rightly_blameParameter? (position : Nat) (pairs : List (Handle × Handle)) :
    (blameParameter? position pairs : Query ρ _).Rightly v := by
  induction pairs generalizing position with
  | nil => exact rightly_none
  | cons p pairs ih => exact Rightly.orBlame (rightly_reasonPart? rfl) (ih _)

/-- The blame for a function, its parameters before its result, is right. -/
theorem rightly_blameFunction? {a b : Signature} :
    (blameFunction? a b : Query ρ _).Rightly v := by
  unfold blameFunction?
  dsimp only
  split
  · exact rightly_nil rfl
  · refine (rightly_blameParameter? 0 _).orBlame (rightly_blamePart? ?_)
    exact fun apart _ inner => Reason.isRight_cons rfl apart inner

/-! ## §3. The rule that fails -/

/-- Elements that do not fit. -/
theorem rightly_element (apart : ¬ v.Fits s t) : ((do
    let blame ← blamePart? s t fun cause => .elementMismatch s t (some cause)
    pure (some (blame.getD (.reason (.elementMismatch s t none))))) :
      Query ρ (Option Blame)).Rightly v := by
  have unrelated : v.fits s t = false := by
    rw [← Bool.not_eq_true, View.fits_eq_true]
    exact apart
  show ∀ b ∈ some (Option.getD (if (Answer.ofBool (v.fits s t)).isTrue then none
    else some (.part s t fun cause => .elementMismatch s t (some cause))) _), Blame.IsRight v b
  rw [unrelated]
  rintro _ ⟨⟩
  exact ⟨apart, fun _ inner => Reason.isRight_cons rfl apart inner⟩

/-- Of the keys and the values of two maps, the first that do not fit both ways. -/
theorem rightly_parameters {k k' x x' : Handle}
    (apart : ¬ (v.Relates .identical k k' ∧ v.Relates .identical x x')) : ((do
    let keys ← relate (Rule.map.variance 0) k k'
    pure (some (.reason (if keys.isTrue then .invariantParameter x x'
      else .invariantParameter k k')))) : Query ρ (Option Blame)).Rightly v := by
  have keys : ((relate (Rule.map.variance 0) k k').eval v v.fits v.fits).isTrue
      = (v.fits k k' && v.fits k' k) :=
    (isTrue_eval_andThen v _ _ _ _).trans (by simp only [isTrue_eval_related])
  intro b hb
  rw [bind_eq, eval_bind, pure_eq, eval_done, keys] at hb
  obtain rfl := Option.some.inj hb
  intro p hp fit
  -- the keys are blamed unless they fit in both directions, and then the values are
  split at hp
  · next hk =>
    rw [Bool.and_eq_true, View.fits_eq_true, View.fits_eq_true] at hk
    obtain rfl := List.mem_singleton.1 hp
    exact apart ⟨⟨hk.1, fun _ => hk.2⟩, fit⟩
  · next hk =>
    obtain rfl := List.mem_singleton.1 hp
    refine hk (Bool.and_eq_true_iff.2 ⟨?_, ?_⟩)
    · exact View.fits_eq_true.2 fit.1
    · exact View.fits_eq_true.2 (fit.2 rfl)

section

variable {a b : Node} {rule : Rule} (hs : v.store.node? s = some a)
  (ht : v.store.node? t = some b) (apart : ¬ v.Fits s t)
include hs ht apart

/-- Where two nodes with parts do not fit, their parts do not match. -/
theorem not_matches (ps : a.isShape = true) (pt : b.isShape = true) (parts : a.isLeaf = false) :
    ¬ v.Matches a b := fun fit =>
  apart (View.fits_of_apart hs ht (.inl parts) fun h => (View.fits_iff_matches h hs ht ps pt).2 fit)

/-- Each rule of the table blames rightly the two kinds that it is chosen for. -/
theorem rightly_blameRule? (hrule : Rule.of? a.kind b.kind = some rule) :
    (blameRule? v.flags rule s t a b : Query ρ _).Rightly v := by
  -- were the parts related, the rule would have taken the pair
  have unmatched := not_matches hs ht apart
  intro blame hblame
  unfold blameRule? at hblame
  rw [bind_eq, eval_bind, eval_store] at hblame
  split at hblame
  · exact rightly_element (fun fit => unmatched rfl rfl rfl (.array fit)) blame hblame
  · exact rightly_element (fun fit => unmatched rfl rfl rfl (.promise fit)) blame hblame
  · obtain rfl := Option.some.inj hblame
    intro p hp fit
    obtain rfl := List.mem_singleton.1 hp
    exact unmatched rfl rfl rfl (.set fit.1 (fit.2 rfl))
  · obtain rfl : Rule.map = rule := Option.some.inj hrule
    refine rightly_parameters (fun fit => ?_) blame hblame
    exact unmatched rfl rfl rfl (.map fit.1.1 (fit.1.2 rfl) fit.2.1 (fit.2.2 rfl))
  · exact rightly_blameTuple? blame hblame
  · exact rightly_blameFunction? blame hblame
  · exact rightly_blameObject? apart blame hblame
  · exact rightly_blameObject? apart blame hblame
  · cases hblame

/-- A branded node is blamed for its base or for the brand that it lacks. -/
theorem rightly_blameBrand? (lt : b.isLazy = false) (hn : v.store.alternatives? b = none)
    (it : b.kind ≠ .intersection) : (blameBrand? v.flags s t a b : Query ρ _).Rightly v := by
  intro blame hblame
  unfold blameBrand? at hblame
  rw [bind_eq, eval_bind, eval_store] at hblame
  split at hblame
  · next base brand base' brand' =>
    split at hblame
    · next same =>
      obtain rfl := Option.some.inj hblame
      refine ⟨fun fit => apart (View.fits_branded hs ht rfl hn it ?_ ?_), fun _ inner => inner⟩
      · exact fun other => absurd (by rw [same]) (other base')
      · rintro _ ⟨⟩
        exact fit
    · next other =>
      -- a brand further down is for the base to have
      split at hblame
      · obtain rfl := Option.some.inj hblame
        refine ⟨fun fit => apart (View.fits_branded hs ht rfl hn it (fun _ => fit) ?_),
          fun _ inner => inner⟩
        rintro _ ⟨⟩
        exact absurd rfl other
      · obtain rfl := Option.some.inj hblame
        exact Reason.isRight_nil rfl
      · obtain rfl := Option.some.inj hblame
        trivial
  · obtain rfl := Option.some.inj hblame
    exact Reason.isRight_nil rfl
  · next base brand notBranded =>
    obtain rfl := Option.some.inj hblame
    refine ⟨fun fit => apart (View.fits_branded hs ht lt hn it (fun _ => fit) ?_),
      fun _ inner => inner⟩
    exact fun c hc => absurd hc (notBranded c brand)
  · split at hblame
    · next hrule => exact rightly_blameRule? hs ht apart hrule blame hblame
    · cases hblame

/-- Between two nodes that are not lazy the blame is right. -/
theorem rightly_blameNodes? (ls : a.isLazy = false) (lt : b.isLazy = false) :
    (blameNodes? v.flags s t a b : Query ρ _).Rightly v := by
  intro blame hblame
  unfold blameNodes? at hblame
  rw [bind_eq, eval_bind, eval_store] at hblame
  split at hblame
  -- a union in the source: the member that is blamed stands for itself
  · refine Rightly.findSomeM? (fun m _ => rightly_blamePart? ?_) blame hblame
    exact fun apart _ inner => Reason.isRight_cons rfl apart inner
  -- a union in the target: none of its members takes what the union does not
  · next members hn ha =>
    obtain rfl := Option.some.inj hblame
    intro p hp fit
    obtain ⟨m, hm, rfl⟩ := List.mem_map.1 hp
    exact apart (View.fits_into_alternatives hs ht ls hn ha hm fit.1)
  -- an intersection in the target says nothing of its own; else the brands are looked at
  · next hn hn' =>
    split at hblame
    · refine Rightly.findSomeM? (fun m _ => rightly_blamePart? ?_) blame hblame
      exact fun _ _ inner => Reason.isRight_same rfl inner
    · obtain rfl := Option.some.inj hblame
      exact Reason.isRight_single rfl apart
    · next _ hi =>
      refine rightly_blameBrand? hs ht apart lt hn' (fun kind => ?_) blame hblame
      cases b with
      | intersection l => exact hi l rfl
      | _ => cases kind

end

end Query

/-! ## §4. Level by level -/

/-- **THE BLAME FOR A PAIR THAT DOES NOT FIT IS RIGHT.** -/
theorem isRight_blame (resolved : v.IsResolved) (apart : ¬ v.Fits s t) :
    (v.blame s t).IsRight v := by
  unfold View.blame Query.blame
  simp only [Query.bind_eq, Query.eval_bind, Query.eval_resolved, Query.eval_store]
  split
  · next source target hs ht =>
    -- what lazy nodes stand for does not fit either
    have inner : ¬ v.Fits (v.stands s) (v.stands t) := fun fit =>
      apart ((View.fits_stands_iff (v.has_of_stands ⟨_, hs⟩) (v.has_of_stands ⟨_, ht⟩)).2 fit)
    have right := Query.rightly_blameNodes? hs ht inner (resolved.isLazy_of_stands hs)
      (resolved.isLazy_of_stands ht)
    rw [Query.eval_bind]
    cases hb : (Query.blameNodes? v.flags (v.stands s) (v.stands t) source target).eval v v.fits
        v.fits with
    | none => exact Reason.isRight_single rfl apart
    | some blame => exact right blame hb
  · exact Reason.isRight_single rfl apart

/-- **AN EXPLANATION OF A PAIR THAT DOES NOT FIT IS RIGHT**, at all its levels. -/
theorem isRight_reasonWithin (resolved : v.IsResolved) (levels : Nat) : ∀ s t, ¬ v.Fits s t →
    (v.reasonWithin levels s t).IsRight v := by
  induction levels with
  | zero => exact fun s t apart => Reason.isRight_single rfl apart
  | succ levels ih =>
    intro s t apart
    have right := isRight_blame resolved apart
    unfold View.reasonWithin
    cases hb : v.blame s t with
    | reason r =>
      rw [hb] at right
      exact right
    | part a b around =>
      rw [hb] at right
      exact right.2 _ (ih a b right.1)
    | endless => exact Reason.isRight_single rfl apart

end Assignability
