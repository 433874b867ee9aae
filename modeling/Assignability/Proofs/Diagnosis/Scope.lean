/-
  Assignability.Proofs.Diagnosis.Scope
  ────────────────────────────────────
  **THE BLAME IS LOOKED FOR AMONG THE PARTS.**

  What is to blame for a pair is found by asking about parts of the two
  sides, as the comparison itself does, and what is found is of one of two
  sorts.  Brands are taken off one after the other, and the reason for
  what is below them is that for the whole (`Store.BrandBlame`); they are
  found in the store as it is, before anything is asked.  All other
  reasons have a place of their own, with the reason for a part in it
  (`Blame.Ordinary`).

  Main statements: `hasSort_blameNodes?`, `scoped_blame`.
-/
import Assignability.Diagnosis.Explain
import Assignability.Proofs.Diagnosis.Steady
import Assignability.Proofs.Query.Scoped
import Assignability.Proofs.Relation.Rules

namespace Assignability

open View

variable {ρ : Type}

/-! ## §1. Sorts of blame -/

namespace Reason

mutual

/-- Whether a reason reports the limit, itself or at one of its levels. -/
def cutOff : Reason → Bool
  | limitExceeded _ _ => true
  | propertyMismatch _ _ _ cause => cutOffBelow cause
  | tupleElement _ _ _ cause => cutOffBelow cause
  | elementMismatch _ _ cause => cutOffBelow cause
  | returnMismatch _ _ cause => cutOffBelow cause
  | unionMember _ _ cause => cutOff cause
  | intersectionMember _ cause => cutOff cause
  | missingProperty _ _ _ | optionalProperty _ | indexMismatch _ _ _ | tupleArity _ _
  | invariantParameter _ _ | parameterCount _ _ | parameterMismatch _ _ _ | noUnionMember _ _
  | noIntersectionMember _ _ | brandMismatch _ _ | mismatch _ _ => false

/-- Whether the reason for a part reports the limit, if there is one. -/
def cutOffBelow : Option Reason → Bool
  | none => false
  | some cause => cutOff cause

end

/-- The brand that the source lacks, if that is the reason. -/
def lackedBrand? : Reason → Option Atom
  | brandMismatch _ brand => some brand
  | _ => none

/-- A reason that is neither the limit nor the lack of a brand. -/
structure Ordinary (r : Reason) : Prop where
  cutOff : r.cutOff = false
  lackedBrand? : r.lackedBrand? = none

/-- A reason that has a place for the reason for a part, and is not the lack of a brand. -/
structure Surrounds (around : Reason → Reason) : Prop where
  cutOff : ∀ r : Reason, (around r).cutOff = r.cutOff
  lackedBrand? : ∀ r : Reason, (around r).lackedBrand? = none

end Reason

/-- Blame that is laid on a part in a scope, with the reason for the part inside a reason for the
whole; or a reason that is not looked into. -/
def Blame.Ordinary (c : Query.Scope) : Blame → Prop
  | .reason r => r.Ordinary
  | .part s t around => c.asks s t ∧ Reason.Surrounds around
  | .endless => False

/-- What is to blame where the brands of two nodes are compared. -/
inductive Store.BrandBlame (σ : Store ρ) (s t : Handle) : Blame → Prop
  /-- Both have the brand, and their bases are compared. -/
  | same {base base' : Handle} {brand : Atom} (hs : σ.node? s = some (.branded base brand))
    (ht : σ.node? t = some (.branded base' brand)) : BrandBlame σ s t (.part base base' id)
  /-- The source has another brand, and that of the target further down. -/
  | deeper {base base' : Handle} {brand brand' : Atom}
    (hs : σ.node? s = some (.branded base brand))
    (ht : σ.node? t = some (.branded base' brand')) (other : brand ≠ brand')
    (carried : σ.hasBrand? brand' base = some true) : BrandBlame σ s t (.part base t id)
  /-- The source does not have the brand. -/
  | lacking {base' : Handle} {brand : Atom} (other : Option Atom)
    (ht : σ.node? t = some (.branded base' brand))
    (lacks : σ.hasBrand? brand s = some false) :
    BrandBlame σ s t (.reason (.brandMismatch other brand))
  /-- Only the source has a brand. -/
  | bare {base : Handle} {brand : Atom} {target : Node}
    (hs : σ.node? s = some (.branded base brand)) (ht : σ.node? t = some target)
    (unbranded : target.kind ≠ .branded) : BrandBlame σ s t (.part base t id)
  /-- The bases of the source come to no end. -/
  | endless : BrandBlame σ s t .endless

/-- The bases that are compared are parts of the nodes. -/
theorem View.poses_of_brandBlame {v : View ρ} {s t a b : Handle} {around : Reason → Reason}
    (h : v.store.BrandBlame s t (.part a b around)) : v.Poses s t a b := by
  have base : ∀ {h g : Handle} {brand : Atom}, v.store.node? h = some (.branded g brand) →
      v.Within h g := fun hn => within_component hn (List.mem_singleton_self _)
  cases h with
  | same hs ht => exact .left (base hs) (base ht).below
  | deeper hs ht other carried => exact .left (base hs) (.refl t)
  | bare hs _ _ => exact .left (base hs) (.refl t)

/-- A branded node of another brand has what its base has. -/
theorem Store.hasBrand?_of_branded {σ : Store ρ} {h base : Handle} {brand c : Atom} {found : Bool}
    (hn : σ.node? h = some (.branded base c)) (other : c ≠ brand)
    (below : σ.hasBrand? brand base = some found) : σ.hasBrand? brand h = some found := by
  obtain ⟨n, hn'⟩ := hasBrand?_eq_some_iff.1 below
  refine hasBrand?_eq_some_iff.2 ⟨n + 1, ?_⟩
  rw [hasBrandWithin?_succ, hn]
  dsimp only
  rw [if_neg other]
  exact hn'

/-- A node of another kind has no brand. -/
theorem Store.hasBrand?_of_not_branded {σ : Store ρ} {h : Handle} {brand : Atom}
    (unbranded : ∀ b c, σ.node? h ≠ some (.branded b c)) : σ.hasBrand? brand h = some false := by
  refine hasBrand?_eq_some_iff.2 ⟨1, ?_⟩
  rw [hasBrandWithin?_succ]
  split
  · next hn => exact absurd hn (unbranded _ _)
  · rfl

/-- A question about what two lazy nodes stand for may come up with the two. -/
theorem View.Poses.of_stands {v : View ρ} {s t a b : Handle}
    (h : v.Poses (v.stands s) (v.stands t) a b) : v.Poses s t a b := by
  have descends : ∀ {a b}, v.Descends (v.stands s) (v.stands t) a b → v.Descends s t a b :=
    fun h => h.imp (fun h => ⟨(below_stands s).trans h.1, (below_stands t).within h.2⟩)
      fun h => ⟨(below_stands s).within h.1, (below_stands t).trans h.2⟩
  exact h.imp descends descends

namespace Query

variable {c : Setting ρ} {s t : Handle} {around : Reason → Reason} {r : Reason}

/-! ## §2. The part that fails -/

/-- A search within a setting, for ordinary blame. -/
abbrev Finds (c : Setting ρ) (q : Query ρ (Option Blame)) : Prop :=
  q.Scoped c fun blame => ∀ b ∈ blame, b.Ordinary c.toScope

/-- To blame nothing stays in the scope. -/
theorem finds_none : (done none : Query ρ _).Finds c := .done nofun

/-- So does an ordinary blame. -/
theorem finds_some {b : Blame} (h : b.Ordinary c.toScope) : (done (some b) : Query ρ _).Finds c := by
  refine .done ?_
  rintro _ ⟨⟩
  exact h

/-- So does an ordinary reason. -/
theorem finds_reason (h : r.Ordinary) :
    (done (some (.reason r)) : Query ρ _).Finds c := finds_some h

/-- A part stays in the scope if the scope asks for its pair. -/
theorem finds_blamePart? (hc : c.asks s t)
    (h : Reason.Surrounds around) :
    (blamePart? s t around : Query ρ _).Finds c := by
  refine .ask hc fun a => ?_
  show (done (if a.isTrue then none else some (Blame.part s t around))).Finds c
  split
  · exact finds_none
  · exact finds_some ⟨hc, h⟩

/-- The reason of one pair stays in it likewise. -/
theorem finds_reasonPart? (hc : c.asks s t) (h : r.Ordinary) :
    (reasonPart? s t r : Query ρ _).Finds c := by
  refine .ask hc fun a => ?_
  show (done (if a.isTrue then none else some (Blame.reason r))).Finds c
  split
  · exact finds_none
  · exact finds_some h

/-- One search after the other stays in the scope where both do. -/
theorem Finds.orBlame {q r : Query ρ (Option Blame)} (hq : q.Finds c) (hr : r.Finds c) :
    (q.orBlame r).Finds c := by
  refine hq.bind fun blame h => ?_
  cases blame with
  | none => exact hr
  | some b => exact .done h

/-- A search through a list stays in the scope where it does for each of the elements. -/
theorem Finds.findSomeM? {α : Type} {q : α → Query ρ (Option Blame)} {xs : List α}
    (h : ∀ x ∈ xs, (q x).Finds c) : (xs.findSomeM? q).Finds c := by
  induction xs with
  | nil => exact finds_none
  | cons x xs ih =>
    have tail := ih fun y hy => h y (List.mem_cons_of_mem x hy)
    rw [findSomeM?_cons]
    exact (h x List.mem_cons_self).orBlame tail

variable {a b : Layout} {index : IndexSignature}

/-- The questions whether a key admits a name stay within a setting. -/
def Setting.AsksOfKey (c : Setting ρ) (key : Handle) : Prop :=
  ∀ name, (admits key name : Query ρ Bool).Scoped c fun _ => True

/-- A field asks for the source parts against its own type. -/
theorem finds_blameField? {f : Field} (h : ∀ x ∈ a.parts, c.asks x f.type) :
    (blameField? s a t f : Query ρ _).Finds c := by
  unfold blameField?
  split
  · show (done (if f.optional then none else _)).Finds c
    split
    · exact finds_none
    · exact finds_reason ⟨rfl, rfl⟩
  · next hg =>
    split
    · exact finds_reason ⟨rfl, rfl⟩
    · exact finds_blamePart? (h _ (mem_parts_of_field? hg)) ⟨fun _ => rfl, fun _ => rfl⟩

/-- An index signature asks for the source parts against its value, and for its key. -/
theorem finds_blameIndex? (h : ∀ x ∈ a.parts, c.asks x index.value)
    (hc : c.AsksOfKey index.key) : (blameIndex? a index : Query ρ _).Finds c := by
  refine Finds.orBlame (Finds.findSomeM? fun f hf => ?_) ?_
  · refine (hc f.name).bind fun admitted _ => ?_
    split
    · exact finds_reasonPart? (h _ (mem_parts_of_field hf)) ⟨rfl, rfl⟩
    · exact finds_none
  · split
    · next own => exact finds_reasonPart? (h _ (value_mem_parts own)) ⟨rfl, rfl⟩
    · exact finds_none

/-- Objects ask for parts against parts, and for the keys of the target. -/
theorem finds_blameObject? (h : ∀ x ∈ a.parts, ∀ y ∈ b.parts, c.asks x y)
    (hc : ∀ y ∈ b.parts, c.AsksOfKey y) : (blameObject? s a t b : Query ρ _).Finds c := by
  refine Finds.orBlame (Finds.findSomeM? fun f hf => ?_) ?_
  · exact finds_blameField? fun x hx => h x hx _ (mem_parts_of_field hf)
  · split
    · next hi =>
      exact finds_blameIndex? (fun x hx => h x hx _ (value_mem_parts hi)) (hc _ (key_mem_parts hi))
    · exact finds_none

/-- Elements ask for the pairs of the list. -/
theorem finds_blameElement? {pairs : List (Handle × Handle)} {position : Nat}
    (h : ∀ p ∈ pairs, c.asks p.1 p.2) : (blameElement? position pairs : Query ρ _).Finds c := by
  induction pairs generalizing position with
  | nil => exact finds_none
  | cons p pairs ih =>
    refine Finds.orBlame (finds_blamePart? (h p List.mem_cons_self) ?_) ?_
    · exact ⟨fun _ => rfl, fun _ => rfl⟩
    · exact ih fun q hq => h q (List.mem_cons_of_mem p hq)

/-- Tuples ask for parts against parts. -/
theorem finds_blameTuple? {flags : Flags} {a b : Sequence}
    (h : ∀ x ∈ a.parts, ∀ y ∈ b.parts, c.asks x y) :
    (blameTuple? flags a b : Query ρ _).Finds c := by
  unfold blameTuple?
  split
  · refine finds_blameElement? fun p hp => ?_
    obtain ⟨left, right⟩ := mem_parts_of_mem_pairs hp
    exact h _ left _ right
  · exact finds_reason ⟨rfl, rfl⟩

/-- Parameters ask for the pairs of the list, turned round. -/
theorem finds_blameParameter? {pairs : List (Handle × Handle)} {position : Nat}
    (h : ∀ p ∈ pairs, c.asks p.2 p.1) :
    (blameParameter? position pairs : Query ρ _).Finds c := by
  induction pairs generalizing position with
  | nil => exact finds_none
  | cons p pairs ih =>
    refine Finds.orBlame (finds_reasonPart? (h p List.mem_cons_self) ⟨rfl, rfl⟩) ?_
    exact ih fun q hq => h q (List.mem_cons_of_mem p hq)

/-- Functions ask for parts against parts in both directions. -/
theorem finds_blameFunction? {a b : Signature}
    (h : ∀ x ∈ a.parts, ∀ y ∈ b.parts, c.asks x y ∧ c.asks y x) :
    (blameFunction? a b : Query ρ _).Finds c := by
  unfold blameFunction?
  dsimp only
  split
  · exact finds_reason ⟨rfl, rfl⟩
  · have result : c.asks a.result b.result := (h _ List.mem_cons_self _ List.mem_cons_self).1
    refine (finds_blameParameter? fun p hp => ?_).orBlame (finds_blamePart? result ?_)
    · obtain ⟨left, right⟩ := mem_parts_of_mem_zip hp
      exact (h _ (List.mem_cons_of_mem _ left) _ (List.mem_cons_of_mem _ right)).2
    · exact ⟨fun _ => rfl, fun _ => rfl⟩

/-- Elements that fail are to blame, and the whole where no element does. -/
theorem finds_blameElementOr (hc : c.asks s t) (h : Reason.Surrounds around) (hr : r.Ordinary) :
    (do
      let blame ← blamePart? s t around
      pure (some (blame.getD (.reason r))) : Query ρ (Option Blame)).Finds c := by
  refine (finds_blamePart? hc h).bind fun blame ordinary => ?_
  cases blame with
  | none => exact finds_reason hr
  | some blame => exact .done ordinary

/-- A variance asks for at most the two directions of a pair. -/
theorem scoped_relate {variance : Variance} (both : c.asks s t ∧ c.asks t s) :
    (relate variance s t : Query ρ Answer).Scoped c fun _ => True := by
  have left : (related s t : Query ρ Answer).Scoped c fun _ => True :=
    .ask both.1 fun _ => .done trivial
  have right : (related t s : Query ρ Answer).Scoped c fun _ => True :=
    .ask both.2 fun _ => .done trivial
  cases variance with
  | covariant => exact left
  | contravariant => exact right
  | invariant =>
    refine left.bind fun a _ => ?_
    split
    · exact right
    · exact .done trivial

/-! ## §3. The rule that fails -/

/-- A setting in which two nodes, with their handles, may be taken apart: what is a part of the one in
a store that is seen may be compared with the other, and with its parts. -/
structure Setting.Opens (c : Setting ρ) (s t : Handle) (source target : Node) : Prop where
  left : ∀ σ, c.sees σ → ∀ a ∈ σ.components source, c.asks a t
  right : ∀ σ, c.sees σ → ∀ b ∈ σ.components target, c.asks s b
  both : ∀ σ, c.sees σ → ∀ a ∈ σ.components source, ∀ b ∈ σ.components target,
    c.asks a b ∧ c.asks b a
  keys : ∀ σ, c.sees σ → ∀ b ∈ σ.components target, c.AsksOfKey b

/-- The setting without any scope lets every pair in. -/
theorem Setting.opens_any {source target : Node} :
    (any : Setting ρ).Opens s t source target where
  left := fun _ _ _ _ => trivial
  right := fun _ _ _ _ => trivial
  both := fun _ _ _ _ _ _ => ⟨trivial, trivial⟩
  keys := fun _ _ _ _ _ => scoped_any _

/-- The scope of a pair lets take apart what the two stand for. -/
theorem Setting.opens_of {v : View ρ} {source target : Node}
    (hs : v.store.node? (v.stands s) = some source)
    (ht : v.store.node? (v.stands t) = some target) :
    (of v (v.scope s t)).Opens (v.stands s) (v.stands t) source target where
  left := by
    rintro σ rfl a ha
    exact (Poses.left (within_component hs ha) (.refl _)).of_stands
  right := by
    rintro σ rfl b hb
    exact (Poses.right (.refl _) (within_component ht hb)).of_stands
  both := by
    rintro σ rfl a ha b hb
    have poses : v.Poses s t a b :=
      (Poses.left (within_component hs ha) (within_component ht hb).below).of_stands
    exact ⟨poses, poses.swap⟩
  keys := by
    rintro σ rfl b hb name
    refine (quiet_admits fun g hg => ?_).scoped
    exact .inr (((below_stands t).trans (within_component ht hb).below).trans hg)

section

variable {σ : Store ρ} {flags : Flags} {rule : Rule} {source target : Node}

/-- Each rule of the table stays in a scope that opens the two nodes. -/
theorem finds_blameRule? (opens : c.Opens s t source target) :
    (blameRule? flags rule s t source target : Query ρ _).Finds c := by
  refine .look fun σ seen => ?_
  -- opened nodes ask for their components, in both directions
  have both := opens.both σ seen
  have keys := opens.keys σ seen
  dsimp only [Query.bind]
  split
  · exact finds_blameElementOr (both _ (by simp [Store.components]) _ (by simp [Store.components])).1
      ⟨fun _ => rfl, fun _ => rfl⟩ ⟨rfl, rfl⟩
  · exact finds_blameElementOr (both _ (by simp [Store.components]) _ (by simp [Store.components])).1
      ⟨fun _ => rfl, fun _ => rfl⟩ ⟨rfl, rfl⟩
  · exact finds_reason ⟨rfl, rfl⟩
  · next sk _ tk _ =>
    have asked := both sk (by simp [Store.components]) tk (by simp [Store.components])
    refine (scoped_relate asked).bind fun a _ => finds_reason ?_
    split <;> exact ⟨rfl, rfl⟩
  · exact finds_blameTuple? fun x hx y hy => (both x hx y hy).1
  · exact finds_blameFunction? both
  · exact finds_blameObject? (fun x hx y hy => (both x hx y hy).1) keys
  -- a record is taken as an object with an index signature alone
  · next key value =>
    have part : ∀ y ∈ Layout.parts ⟨[], some ⟨key, value⟩⟩,
        y ∈ σ.components (.record key value) := fun y hy => by
      simpa [Layout.parts, IndexSignature.parts, Store.components] using hy
    exact finds_blameObject? (fun x hx y hy => (both x hx y (part y hy)).1)
      fun y hy => keys y (part y hy)
  · exact finds_none

/-- Blame of either sort: of brands, once the store has been looked at, or ordinary. -/
def HasSort (c : Setting ρ) (σ : Store ρ) (s t : Handle) (q : Query ρ (Option Blame)) : Prop :=
  (∃ blame, q.seeing σ = done (some blame) ∧ σ.BrandBlame s t blame) ∨ (q.seeing σ).Finds c

variable (seen : c.sees σ) (opens : c.Opens s t source target) (hs : σ.node? s = some source)
  (ht : σ.node? t = some target)
include seen opens hs ht

/-- What is to blame for two nodes by their brands is found in the store as it is; else it is looked
for by the rule for their constructors, if there is one. -/
theorem hasSort_blameBrand? : (blameBrand? flags s t source target).HasSort c σ s t := by
  unfold HasSort blameBrand?
  rw [bind_eq, seeing_bind_store]
  -- one case for each way in which the two may have brands
  split
  · split
    · next same =>
      rw [same] at hs
      exact .inl ⟨_, rfl, .same hs ht⟩
    · next other =>
      split
      · next carried => exact .inl ⟨_, rfl, .deeper hs ht other carried⟩
      · next lacks =>
        exact .inl ⟨_, rfl, .lacking _ ht (Store.hasBrand?_of_branded hs other lacks)⟩
      · exact .inl ⟨_, rfl, .endless⟩
  · next notBranded =>
    refine .inl ⟨_, rfl, .lacking _ ht (Store.hasBrand?_of_not_branded fun b c hn => ?_)⟩
    exact notBranded b c (Option.some.inj (hs.symm.trans hn))
  · next notBranded =>
    refine .inl ⟨_, rfl, .bare hs ht fun kind => ?_⟩
    cases target with
    | branded b c => exact notBranded b c rfl
    | _ => cases kind
  · split
    · -- the rule looks at the same store before it asks anything
      exact .inr ((finds_blameRule? opens).seeing seen)
    · exact .inr finds_none

/-- **WHAT IS TO BLAME FOR TWO NODES** is so by their brands, or by another rule. -/
theorem hasSort_blameNodes? : (blameNodes? flags s t source target).HasSort c σ s t := by
  have ordinary : ∀ {q : Query ρ (Option Blame)}, q.Finds c → q.HasSort c σ s t :=
    fun hq => .inr (hq.seeing seen)
  unfold HasSort blameNodes?
  rw [bind_eq, seeing_bind_store]
  split
  · next members h =>
    have member : ∀ m ∈ members, c.asks m t := fun m hm =>
      opens.left σ seen m (Store.mem_components_of_alternatives? h hm)
    refine ordinary (.findSomeM? fun m hm => finds_blamePart? (member m hm) ?_)
    exact ⟨fun _ => rfl, fun _ => rfl⟩
  · exact ordinary (finds_reason ⟨rfl, rfl⟩)
  · split
    · refine ordinary (.findSomeM? fun m hm => finds_blamePart? (opens.right σ seen m hm) ?_)
      exact ⟨fun _ => rfl, fun _ => rfl⟩
    · exact ordinary (finds_reason ⟨rfl, rfl⟩)
    · exact hasSort_blameBrand? seen opens hs ht

end

/-- **THE BLAME IS LOOKED FOR AMONG THE PARTS**, and is ordinary or one of brands. -/
theorem scoped_blame (v : View ρ) (flags : Flags) (s t : Handle) :
    (blame flags s t : Query ρ Blame).Scoped (.of v (v.scope s t)) fun b =>
      b.Ordinary (v.scope s t) ∨ v.store.BrandBlame (v.stands s) (v.stands t) b := by
  have mismatch : Blame.Ordinary (v.scope s t) (.reason (.mismatch s t)) := ⟨rfl, rfl⟩
  refine .resolve (.inl (.refl s)) ?_
  rintro g rfl
  refine .resolve (.inr (.refl t)) ?_
  rintro h rfl
  refine .look ?_
  rintro σ rfl
  dsimp only [Query.bind]
  split
  · next source target hs ht =>
    have sort : (blameNodes? flags (v.stands s) (v.stands t) source target).HasSort
      (.of v (v.scope s t)) v.store (v.stands s) (v.stands t) :=
        hasSort_blameNodes? rfl (Setting.opens_of hs ht) hs ht
    have found : (blameNodes? flags (v.stands s) (v.stands t) source target).Scoped
        (.of v (v.scope s t)) fun blame => ∀ b ∈ blame,
          b.Ordinary (v.scope s t) ∨ v.store.BrandBlame (v.stands s) (v.stands t) b := by
      refine scoped_of_seeing ?_
      -- a blame for a brand asks for nothing and may look outside the pair
      rcases sort with ⟨blame, found, brands⟩ | finds
      · rw [found]
        refine .done ?_
        rintro _ ⟨⟩
        exact .inr brands
      · exact finds.imp fun _ h b hb => .inl (h b hb)
    refine found.bind fun blame h => ?_
    cases blame with
    | none => exact .done (.inl mismatch)
    | some b => exact .done (h b rfl)
  · exact .done (.inl mismatch)

end Query

end Assignability
