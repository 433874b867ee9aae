/-
  Assignability.Proofs.Relation.Leaf
  ──────────────────────────────────
  **SOURCES WITHOUT PARTS.**

  A built-in type or a literal has no parts to be taken apart, so the
  comparison follows the target alone: what a lazy node stands for, some
  member of a union, every member of an intersection.  What is then left
  of the target takes the source at once or not at all
  (`IsLeafOf.atOnce`).

  The two ends that fit everything at once, the empty and the unchecked
  type, are left out.

  Literals fit a union by one of its members, and what is not taken apart
  if it has their value (`cases_of_fits_literal`).
-/
import Assignability.Proofs.Relation.Closed
import Assignability.Proofs.Relation.Plain

namespace Assignability.View

variable {ρ : Type} {v : View ρ} {s t u : Handle} {source target : Node} {members : List Handle}
  {l : ListId} {d : LazyId}

/-! ## §1. Pieces of a target -/

/-- A target and what it is taken apart into: members, and what lazy nodes stand for. -/
inductive Piece (v : View ρ) (t : Handle) : Handle → Prop
  | whole : Piece v t t
  | stands {u : Handle} {d : LazyId} (h : Piece v t u) (hn : v.store.node? u = some (.lazy d)) :
    Piece v t (v.stands u)
  | member {u m : Handle} {n : Node} {members : List Handle} (h : Piece v t u)
    (hn : v.store.node? u = some n) (ha : v.store.alternatives? n = some members)
    (hm : m ∈ members) : Piece v t m
  | every {u m : Handle} {l : ListId} (h : Piece v t u)
    (hn : v.store.node? u = some (.intersection l)) (hm : m ∈ v.store.list l) : Piece v t m

/-- The pieces of a member of a union are pieces of the union. -/
theorem Piece.of_member {m : Handle} (ht : v.store.node? t = some target)
    (ha : v.store.alternatives? target = some members) (hm : m ∈ members) (h : v.Piece m u) :
    v.Piece t u := by
  induction h with
  | whole => exact .member .whole ht ha hm
  | stands _ hn ih => exact ih.stands hn
  | member _ hn ha hm ih => exact ih.member hn ha hm
  | every _ hn hm ih => exact ih.every hn hm

/-- The pieces of a target are below it. -/
theorem below_of_piece (h : v.Piece t u) : v.Below t u := by
  induction h with
  | whole => exact .refl t
  | stands _ hn ih => exact ih.trans (within_stands (Store.lazyId?_of_node hn)).below
  | member _ hn ha hm ih =>
    exact ih.trans (within_component hn (Store.mem_components_of_alternatives? ha hm)).below
  | every _ hn hm ih => exact ih.trans (within_component hn hm).below

/-- What is not taken apart is its only piece. -/
theorem eq_of_piece (ht : v.store.node? t = some target) (lt : target.isLazy = false)
    (ha : v.store.alternatives? target = none) (it : target.kind ≠ .intersection)
    (h : v.Piece t u) : u = t := by
  have same : ∀ {n : Node}, v.store.node? t = some n → n = target := fun hn =>
    Option.some.inj (hn.symm.trans ht)
  -- a target that is not taken apart has no other pieces
  induction h with
  | whole => rfl
  | stands _ hn ih =>
    rw [ih] at hn
    rw [← same hn] at lt
    cases lt
  | member _ hn hms _ ih =>
    rw [ih] at hn
    rw [same hn, ha] at hms
    cases hms
  | every _ hn _ ih =>
    rw [ih] at hn
    exact absurd (same hn ▸ rfl) it

/-! ## §2. Sources without parts -/

/-- A source without parts that is neither empty nor unchecked. -/
structure IsLeafOf (v : View ρ) (s : Handle) (source : Node) : Prop where
  node : v.store.node? s = some source
  leaf : source.isLeaf = true
  populated : s ≠ .never
  checked : s ≠ .any

namespace IsLeafOf

variable (hs : v.IsLeafOf s source)
include hs

/-- A leaf is not lazy. -/
theorem isLazy : source.isLazy = false := by
  have leaf := hs.leaf
  cases source with
  | intrinsic | literal => rfl
  | _ => cases leaf

/-- A leaf has no alternatives. -/
theorem alternatives? : v.store.alternatives? source = none := by
  have leaf := hs.leaf
  cases source with
  | intrinsic | literal => rfl
  | _ => cases leaf

/-- A leaf is no intersection. -/
theorem kind_ne : source.kind ≠ .intersection := by
  have leaf := hs.leaf
  cases source with
  | intrinsic | literal => exact fun h => nomatch h
  | _ => cases leaf

/-- A leaf never holds at once of what is to be taken apart. -/
theorem apart (ht : v.store.node? t = some target) (pt : target.isLeaf = false) :
    v.store.atOnce? v.flags s t = none := by
  cases hb : v.store.atOnce? v.flags s t with
  | none => rfl
  | some b =>
    have fits : v.Fits s t := (fits_of_atOnce? hb).2 (eq_true_of_atOnce? hs.node ht (.inr pt) hb)
    have atOnce : v.AtOnce s t := fits.atOnce_or.resolve_right fun h => by
      rw [h] at hb
      cases hb
    have other : target.kind ≠ .intrinsic := by
      cases target with
      | intrinsic => cases pt
      | _ => exact fun h => nomatch h
    -- what holds at once is about tops, the empty type, `any`, one handle or two leaves
    cases atOnce with
    | top h => exact (h.elim (ne_handle_of_node ht other _) (ne_handle_of_node ht other _)).elim
    | bottom h => exact absurd h hs.populated
    | unchecked h => exact absurd h hs.checked
    | self h =>
      subst h
      obtain rfl := Option.some.inj (hs.node.symm.trans ht)
      rw [hs.leaf] at pt
      cases pt
    | leaf h =>
      rcases (leafPair?_eq_some_true hs.node ht).1 h with ⟨_, _, -, rfl, -⟩ | ⟨_, _, -, rfl, -⟩
      · cases pt
      · cases pt

/-- A leaf does not fit what is not there. -/
theorem exists_node (h : v.Fits s t) : ∃ n, v.store.node? t = some n := by
  rcases h.atOnce_or_node with atOnce | ⟨n, hn, -⟩
  · cases atOnce with
    | top h =>
      rcases h with rfl | rfl
      · exact ⟨_, v.store.node?_handle .unknown⟩
      · exact ⟨_, v.store.node?_handle .any⟩
    | bottom h => exact absurd h hs.populated
    | unchecked h => exact absurd h hs.checked
    | self h => exact ⟨source, h ▸ hs.node⟩
    | leaf h =>
      cases hn : v.store.node? t with
      | some n => exact ⟨n, rfl⟩
      | none =>
        unfold Store.leafPair? at h
        rw [hs.node, hn] at h
        cases h
  · exact ⟨n, hn⟩

/-- A leaf fits a lazy node as it fits what that stands for. -/
theorem fits_lazy_iff (ht : v.store.node? t = some (.lazy d)) :
    v.Fits s t ↔ v.Fits s (v.stands t) := by
  have lazy : (source.isLazy || (Node.lazy d).isLazy) = true := by rw [hs.isLazy]; rfl
  have itself : v.stands s = s := stands_of_node hs.node hs.isLazy
  rw [fits_iff_step (hs.apart ht rfl), isTrue_eval_step_of_lazy hs.node ht lazy, fits_eq_true, itself]

/-- A leaf fits a union as it fits a member. -/
theorem fits_alternatives_iff (ht : v.store.node? t = some target)
    (ha : v.store.alternatives? target = some members) : v.Fits s t ↔ v.FitsMember s members :=
  fits_into_alternatives_iff (hs.apart ht (isLeaf_of_alternatives? ha)) hs.node ht hs.isLazy
    hs.alternatives? hs.kind_ne ha

/-- A leaf fits an intersection as it fits all members. -/
theorem fits_intersection_iff (ht : v.store.node? t = some (.intersection l)) :
    v.Fits s t ↔ ∀ m ∈ v.store.list l, v.Fits s m :=
  fits_into_intersection_iff (hs.apart ht rfl) hs.node ht hs.isLazy hs.alternatives?

/-- A leaf fits what is not to be taken apart at once, or not at all. -/
theorem atOnce (h : v.Fits s t) (ht : v.store.node? t = some target) (lt : target.isLazy = false)
    (ha : v.store.alternatives? target = none) (it : target.kind ≠ .intersection) :
    v.AtOnce s t := by
  refine h.atOnce_or.resolve_right fun apart => ?_
  have ps := hs.leaf
  have pt := not_isLeaf_of_apart apart hs.node ht ps
  rw [fits_iff_nodes apart hs.node ht hs.isLazy lt] at h
  have rule : (Query.nodes v.flags s t source target).eval v v.keysFit v.fits = .fails := by
    cases target with
    | enumeration | union => cases ha
    | intersection => exact absurd rfl it
    | lazy => cases lt
    | intrinsic | literal => cases pt
    | _ => cases source <;> first | rfl | cases ps
  rw [rule] at h
  cases h

/-- A leaf has no key types to be compared. -/
theorem not_posesKeys (x y : Handle) : ¬ v.PosesKeys s t x y := by
  -- nothing is below a leaf, and so no key type
  have parts : v.store.parts s = [] := by
    have leaf := hs.leaf
    rw [Store.parts_of_node hs.node]
    cases source with
    | intrinsic | literal => rfl
    | _ => cases leaf
  have keyless : ∀ k, ¬ v.KeyBelow s k := by
    intro k hk
    obtain ⟨g, hg, -⟩ := Relation.TransGen.head'_iff.1 hk.within
    cases hg with
    | component hg =>
      rw [parts] at hg
      cases hg
    | stands hd =>
      rw [Store.lazyId?_of_notLazy hs.node hs.isLazy] at hd
      cases hd
  rintro (⟨h, -⟩ | ⟨h, -⟩)
  · exact keyless x h
  · exact keyless y h

end IsLeafOf

/-! ## §3. Literals -/

section

variable {value : Literal} (hs : v.store.node? s = some (.literal value))
include hs

/-- Every literal is a leaf. -/
theorem isLeafOf_literal : v.IsLeafOf s (.literal value) := by
  have other : (Node.literal value).kind ≠ .intrinsic := fun h => nomatch h
  exact ⟨hs, rfl, ne_handle_of_node hs other .never, ne_handle_of_node hs other .any⟩

/-- A union takes a literal by one of its members. -/
theorem fits_literal_alternatives_iff (ht : v.store.node? t = some target)
    (ha : v.store.alternatives? target = some members) :
    v.Fits s t ↔ ∃ m ∈ members, v.Fits s m := by
  constructor
  · intro h
    have among := ((isLeafOf_literal hs).fits_alternatives_iff ht ha).1 h
    exact among.exists_of_node hs fun h => nomatch h
  · rintro ⟨m, hm, h⟩
    exact fits_into_alternatives hs ht rfl rfl ha hm h

/-- What is not to be taken apart takes a literal as itself, as a built-in type that has its value, or
as one at the top. -/
theorem cases_of_fits_literal (h : v.Fits s t) (ht : v.store.node? t = some target)
    (lt : target.isLazy = false) (ha : v.store.alternatives? target = none)
    (it : target.kind ≠ .intersection) :
    (t = .unknown ∨ t = .any) ∨ t = s ∨ ∃ k : Intrinsic, t = k.handle ∧ value.fits k = true := by
  have leaf := isLeafOf_literal hs
  cases leaf.atOnce h ht lt ha it with
  | top h => exact .inl h
  | bottom h => exact absurd h leaf.populated
  | unchecked h => exact absurd h leaf.checked
  | self h => exact .inr (.inl h.symm)
  | leaf h =>
    rcases (leafPair?_eq_some_true hs ht).1 h with ⟨_, _, h, -⟩ | ⟨_, k, h, rfl, fits⟩
    · cases h
    · obtain rfl := Node.literal.inj h
      exact .inr (.inr ⟨k, Store.node?_injective ht (v.store.node?_handle k), fits⟩)

end

end Assignability.View
