/-
  Assignability.Proofs.Relation.Merged
  ────────────────────────────────────
  **INTERSECTIONS OF OBJECTS, AND THE MERGED OBJECT.**

  The merged object of two has the fields of both, where a field that both
  declare has the intersection of the two types.  It is never built, and
  the intersection of the two is not always as good: a type of that field
  which only the intersection of the types fits is fit by neither of them,
  an index signature asks each of the two types for what their
  intersection has, and records are compared with one object alone.  Where
  a target asks for none of this (`AsksApart`), what the merged object
  fits the intersection fits.

  Main statements:
    • `fits_or_of_fits_meet` — where a target asks for one type at a time,
      an intersection of two types fits by one of them,
    • `fitTogether_of_merged` — where the merged object fits, the two do
      together,
    • `related_merged` — and so the checker finds.
-/
import Assignability.Proofs.Checker.Snapshot
import Assignability.Proofs.Relation.Lattice
import Assignability.Proofs.Relation.Leaf
import Assignability.Proofs.Relation.Together
import Assignability.Proofs.Store.Grouping
import Assignability.Proofs.Store.Naming
import Assignability.Proofs.Store.Shapes

namespace Assignability

variable {ρ : Type}

/-! ## §1. Intersections of two types -/

/-- What is left of an intersection's members is among them. -/
theorem Joined.mem_of_mem_intersection {members : List Handle} {m : Handle} (some : members ≠ [])
    (hm : m ∈ (Joined.intersection members).toList) : m ∈ members := by
  -- what absorbs the others was a member itself
  by_cases unchecked : Handle.any ∈ members
  · rw [intersection_of_any unchecked] at hm
    exact List.mem_singleton.1 hm ▸ unchecked
  · by_cases empty : Handle.never ∈ members
    · rw [intersection_of_never unchecked empty] at hm
      exact List.mem_singleton.1 hm ▸ empty
    · by_cases inner : ∃ m ∈ members, m ≠ .unknown
      · exact ((mem_toList_intersection unchecked empty inner).1 hm).1
      · -- the type of all values is the only member
        have only : ∀ m ∈ members, m = .unknown := by simpa using inner
        obtain ⟨x, hx⟩ := List.exists_mem_of_ne_nil members some
        have same : ∀ m, m ∈ members ↔ m ∈ [Handle.unknown] := by
          intro m
          rw [List.mem_singleton]
          exact ⟨only m, fun h => h ▸ only x hx ▸ hx⟩
        rw [intersection_congr same] at hm
        exact (same m).2 hm

namespace Store

variable {σ τ : Store ρ} {a b h m i : Handle} {o p : ObjectId}

/-- What the intersection of two types was built as, at some time before. -/
def IsMeet (σ : Store ρ) (a b h : Handle) : Prop :=
  ∃ τ : Store ρ, τ.IsWhole ∧ (τ.Has a ∧ τ.Has b) ∧ (intersection [a, b] τ).2.Grows σ ∧
    (intersection [a, b] τ).1 = h

/-- An intersection that stands in the store is built as what it is. -/
theorem IsMeet.of_node {members : List Handle} {l : ListId} (whole : σ.IsWhole) (ha : σ.Has a)
    (hb : σ.Has b) (left : Joined.intersection (flattenIntersections σ [a, b]) = .several members)
    (hl : σ.lists.get? l.number = some members) (hn : σ.node? h = some (.intersection l)) :
    σ.IsMeet a b h := by
  have built : intersection [a, b] σ = (h, σ) := by
    unfold intersection
    rw [bind_apply, get_apply, left]
    dsimp only
    rw [bind_apply, internList_of_list hl]
    exact intern_of_node hn
  refine ⟨σ, whole, ⟨ha, hb⟩, ?_, ?_⟩
  · rw [built]
    exact .refl σ
  · rw [built]

/-- A type itself, or if it is an intersection a member of it. -/
def IsConjunct (σ : Store ρ) (m a : Handle) : Prop :=
  m = a ∨ ∃ l, σ.node? a = some (.intersection l) ∧ m ∈ σ.list l

/-- The pieces of an intersection are conjuncts of it, also later. -/
theorem isConjunct_of_mem_piecesOf (whole : τ.IsWhole) (grows : τ.Grows σ) (ha : τ.Has a)
    (hm : m ∈ τ.piecesOf .intersection a) : σ.IsConjunct m a := by
  obtain ⟨n, hn, ⟨same, pieces⟩ | ⟨-, pieces⟩⟩ := piecesOf_cases (k := .intersection) whole grows ha
  · obtain ⟨l, rfl⟩ := Node.exists_intersection same
    rw [pieces] at hm
    exact .inr ⟨l, hn, hm⟩
  · rw [pieces] at hm
    exact .inl (List.mem_singleton.1 hm)

/-- What was built has conjuncts of the two types, itself or as members. -/
theorem IsMeet.conjuncts (meet : σ.IsMeet a b h) (populated : σ.JointsPopulated) : ∃ left,
    (left = [h] ∨ ∃ l, σ.node? h = some (.intersection l) ∧ σ.list l = left) ∧
      ∀ m ∈ left, σ.IsConjunct m a ∨ σ.IsConjunct m b := by
  obtain ⟨τ, whole, has, grows, rfl⟩ := meet
  have earlier : τ.Grows σ := (grows_carryOut (.intersection [a, b]) τ).trans grows
  have some : [a, b].flatMap (τ.piecesOf .intersection) ≠ [] :=
    pieces_ne_nil whole earlier (.inr rfl) (by simpa using has) populated (List.cons_ne_nil a [b])
  rw [intersection_eq_build] at grows ⊢
  refine ⟨_, build_cases (fun _ => by exact nofun) _ grows, fun m hm => ?_⟩
  obtain ⟨x, hx, piece⟩ := List.mem_flatMap.1 (Joined.mem_of_mem_intersection some hm)
  rcases List.mem_cons.1 hx with rfl | hx
  · exact .inl (isConjunct_of_mem_piecesOf whole earlier has.1 piece)
  · obtain rfl := List.mem_singleton.1 hx
    exact .inr (isConjunct_of_mem_piecesOf whole earlier has.2 piece)

/-- Two objects are the members of their intersection, or they are one. -/
theorem IsMeet.of_objects (meet : σ.IsMeet a b i) (ha : σ.node? a = some (.object o))
    (hb : σ.node? b = some (.object p)) :
    (a = i ∧ b = i) ∨ ∃ l, σ.node? i = some (.intersection l) ∧ ∀ m, m ∈ σ.list l ↔ m ∈ [a, b] := by
  obtain ⟨τ, whole, has, grows, rfl⟩ := meet
  have earlier : τ.Grows σ := (grows_carryOut (.intersection [a, b]) τ).trans grows
  have itself : ∀ {x : Handle} {o : ObjectId}, τ.Has x → σ.node? x = some (.object o) →
      τ.piecesOf .intersection x = [x] := by
    intro x o hx ho
    obtain ⟨n, hn, ⟨same, -⟩ | ⟨-, pieces⟩⟩ := piecesOf_cases (k := .intersection) whole earlier hx
    · obtain rfl := Option.some.inj (ho.symm.trans hn)
      cases same
    · exact pieces
  have pieces : [a, b].flatMap (τ.piecesOf .intersection) = [a, b] := by
    rw [List.flatMap_cons, List.flatMap_singleton, itself has.1 ha, itself has.2 hb]
    rfl
  -- neither is one of the ends, so both are left
  have inner : ∀ k : Intrinsic, ∀ x ∈ [a, b], k.handle ≠ x := by
    rintro k x hx rfl
    have built := σ.node?_handle k
    rcases List.mem_cons.1 hx with h | h
    · rw [h, ha] at built
      cases built
    · rw [List.mem_singleton.1 h, hb] at built
      cases built
  have left : ∀ m, m ∈ (Joined.intersection [a, b]).toList ↔ m ∈ [a, b] := by
    intro m
    rw [Joined.mem_toList_intersection (fun h => inner .any _ h rfl) (fun h => inner .never _ h rfl)
      ⟨a, List.mem_cons_self, (inner .unknown a List.mem_cons_self).symm⟩]
    exact and_iff_left_of_imp fun hm => (inner .unknown m hm).symm
  rw [intersection_eq_build, pieces] at grows ⊢
  rcases build_cases (fun _ => by exact nofun) _ grows with single | ⟨l, hl, list⟩
  · rw [single] at left
    exact .inl ⟨List.mem_singleton.1 ((left a).2 List.mem_cons_self),
      List.mem_singleton.1 ((left b).2 (List.mem_cons_of_mem a List.mem_cons_self))⟩
  · exact .inr ⟨l, hl, fun m => by rw [list, left]⟩

/-- A conjunct has no lazies where the whole has none. -/
theorem IsConjunct.lazyFree (h : σ.IsConjunct m a) (fa : σ.LazyFree a) : σ.LazyFree m := by
  rcases h with rfl | ⟨l, hl, hm⟩
  · exact fa
  · exact fa.component hl hm

/-- An intersection of types without lazy nodes has none. -/
theorem IsMeet.lazyFree (meet : σ.IsMeet a b h) (populated : σ.JointsPopulated) (fa : σ.LazyFree a)
    (fb : σ.LazyFree b) : σ.LazyFree h := by
  obtain ⟨left, form, each⟩ := meet.conjuncts populated
  have free : ∀ m ∈ left, σ.LazyFree m := fun m hm =>
    (each m hm).elim (fun h => h.lazyFree fa) (fun h => h.lazyFree fb)
  rcases form with rfl | ⟨l, hl, rfl⟩
  · exact free h (List.mem_singleton_self h)
  · exact .of_components hl rfl free

end Store

/-- Whether a node asks for several types at once. -/
def Node.isProduct : Node → Bool
  | .object _ | .intersection _ => true
  | _ => false

namespace View

variable {v : View ρ} {a b c h m : Handle} {target : Node} {members : List Handle}

/-- What fits a member of a union fits the union. -/
theorem fits_into_member (whole : v.store.IsWhole) (has : v.store.Has a) (fa : v.store.LazyFree a)
    (hc : v.store.node? c = some target) (fc : v.store.LazyFree c)
    (hms : v.store.alternatives? target = some members) (hm : m ∈ members) (h : v.Fits a m) :
    v.Fits a c := by
  induction fa using Store.LazyFree.induction generalizing c m target members with
  | step a fa ih =>
    obtain ⟨source, hs⟩ := has
    cases hxs : v.store.alternatives? source with
    | none => exact fits_into_alternatives hs hc (fa.isLazy hs) hxs hms hm h
    | some xs =>
      have part : ∀ x ∈ xs, x ∈ v.store.components source := fun x =>
        Store.mem_components_of_alternatives? hxs
      have fm : v.store.LazyFree m :=
        fc.component hc (Store.mem_components_of_alternatives? hms hm)
      have kinds : source.kind ≠ .intrinsic ∧ source.kind ≠ .literal := by
        cases source with
        | union | enumeration => exact ⟨nofun, nofun⟩
        | _ => cases hxs
      -- a union fits the member, so each of its own members does
      have each : ∀ x ∈ xs, v.Fits x m := by
        intro x hx
        rcases h.atOnce_or_node with atOnce | ⟨k, hk, apart⟩
        · rcases atOnce.cases_of_node hs kinds.1 kinds.2 with top | rfl
          · exact AtOnce.fits (.top top)
          · exact ih _ hs x (part x hx) (whole.has_component hs (part x hx)) hs fm hxs hx (.refl x)
        · exact (fits_alternatives_iff apart hs hk (fm.isLazy hk) hxs).1 h x hx
      refine fits_alternatives hs hc (isLazy_of_alternatives? hms) hxs fun x hx => ?_
      exact ih _ hs x (part x hx) (whole.has_component hs (part x hx)) hc fc hms hm (each x hx)

/-- An intersection fits where a member does, if it is not another intersection. -/
theorem fits_of_conjunct (conjunct : v.store.IsConjunct m a) (hc : v.store.node? c = some target)
    (lc : target.isLazy = false) (ic : target.kind ≠ .intersection) (h : v.Fits m c) :
    v.Fits a c := by
  rcases conjunct with rfl | ⟨l, hl, hm⟩
  · exact h
  · refine fits_of_apart hl hc (.inl rfl) fun apart => ?_
    cases hms : v.store.alternatives? target with
    | some ms =>
      exact (fits_intersection_into_alternatives_iff apart hl hc hms).2 (.inr (.inl ⟨m, hm, h⟩))
    | none => exact (fits_intersection_iff apart hl hc lc hms ic).2 (.inl ⟨m, hm, h⟩)

/-- **WHERE A TARGET ASKS FOR ONE TYPE AT A TIME, AN INTERSECTION FITS BY ONE OF THE TWO TYPES.** -/
theorem fits_or_of_fits_meet (meet : v.store.IsMeet a b h) (whole : v.store.IsWhole)
    (populated : v.store.JointsPopulated) (has : v.store.Has a ∧ v.store.Has b)
    (fa : v.store.LazyFree a) (fb : v.store.LazyFree b) (hc : v.store.Has c)
    (fc : v.store.LazyFree c)
    (single : ∀ u n, v.Piece c u → v.store.node? u = some n → n.isProduct = false)
    (fits : v.Fits h c) : v.Fits a c ∨ v.Fits b c := by
  obtain ⟨left, form, each⟩ := meet.conjuncts populated
  -- on the parts of the target: the members of its unions ask for one type at a time too
  induction fc using Store.LazyFree.induction with
  | step c fc ih =>
    obtain ⟨target, hu⟩ := hc
    have it : target.kind ≠ .intersection := by
      intro same
      obtain ⟨l, rfl⟩ := Node.exists_intersection same
      cases single c _ .whole hu
    have one : ∀ m ∈ left, v.Fits m c → v.Fits a c ∨ v.Fits b c := fun m hm fits =>
      (each m hm).imp (fun k => fits_of_conjunct k hu (fc.isLazy hu) it fits)
        (fun k => fits_of_conjunct k hu (fc.isLazy hu) it fits)
    rcases form with rfl | ⟨l, hl, rfl⟩
    · exact one h (List.mem_singleton_self h) fits
    · rcases fits.atOnce_or with atOnce | apart
      · rcases atOnce.cases_of_node hl nofun nofun with top | rfl
        · exact .inl (AtOnce.fits (.top top))
        · cases single h _ .whole hl
      · cases hms : v.store.alternatives? target with
        | some ms =>
          rcases (fits_intersection_into_alternatives_iff apart hl hu hms).1 fits with
            among | ⟨m, hm, fits⟩ | asOne
          · obtain ⟨x, hx, fits⟩ := among.exists_of_node hl nofun
            have part := Store.mem_components_of_alternatives? hms hx
            have inner : ∀ u n, v.Piece x u → v.store.node? u = some n → n.isProduct = false :=
              fun u n piece => single u n (piece.of_member hu hms hx)
            exact (ih _ hu x part (whole.has_component hu part) inner fits).imp
              (fits_into_member whole has.1 fa hu fc hms hx)
              (fits_into_member whole has.2 fb hu fc hms hx)
          · exact one m hm fits
          · cases target with
            | union | enumeration => cases asOne
            | _ => cases hms
        | none =>
          rcases (fits_intersection_iff apart hl hu (fc.isLazy hu) hms it).1 fits with
            ⟨m, hm, fits⟩ | asOne
          · exact one m hm fits
          · cases target with
            | object => cases single c _ .whole hu
            | _ => cases asOne

end View

/-! ## §2. The merged object -/

/-- The fields of two objects in one, where a field that both have has the intersection of the two
types and is always present if it is in one of them. -/
structure Store.Merges (σ : Store ρ) (first second merged : Layout) : Prop where
  closed : merged.index = none
  ofFirst : ∀ name f, first.field? name = some f → second.field? name = none →
    merged.field? name = some f
  ofSecond : ∀ name g, first.field? name = none → second.field? name = some g →
    merged.field? name = some g
  ofBoth : ∀ name f g, first.field? name = some f → second.field? name = some g →
    ∃ h, merged.field? name = some h ∧ σ.IsMeet f.type g.type h.type ∧
      h.isAlwaysPresent = (f.isAlwaysPresent || g.isAlwaysPresent)
  ofNeither : ∀ name, first.field? name = none → second.field? name = none →
    merged.field? name = none

namespace Store.Merges

variable {σ : Store ρ} {first second merged : Layout} {name : Atom} {h : Field}

/-- Where a field of the merged object comes from. -/
inductive From (σ : Store ρ) (first second : Layout) (name : Atom) (h : Field) : Prop
  | first (hf : first.field? name = some h) (hg : second.field? name = none)
  | second (hf : first.field? name = none) (hg : second.field? name = some h)
  | both {f g : Field} (hf : first.field? name = some f) (hg : second.field? name = some g)
    (meet : σ.IsMeet f.type g.type h.type)
    (present : h.isAlwaysPresent = (f.isAlwaysPresent || g.isAlwaysPresent))

/-- Every merged field comes from a field of one member or of both. -/
theorem comes_from (merges : σ.Merges first second merged) (found : merged.field? name = some h) :
    From σ first second name h := by
  cases hf : first.field? name with
  | none =>
    cases hg : second.field? name with
    | none => cases found.symm.trans (merges.ofNeither name hf hg)
    | some g =>
      obtain rfl := Option.some.inj (found.symm.trans (merges.ofSecond name g hf hg))
      exact .second hf hg
  | some f =>
    cases hg : second.field? name with
    | none =>
      obtain rfl := Option.some.inj (found.symm.trans (merges.ofFirst name f hf hg))
      exact .first hf hg
    | some g =>
      obtain ⟨h', found', meet, present⟩ := merges.ofBoth name f g hf hg
      obtain rfl := Option.some.inj (found.symm.trans found')
      exact .both hf hg meet present

/-- A field is missing from the merged layout where both members lack it. -/
theorem field?_eq_none_iff (merges : σ.Merges first second merged) :
    merged.field? name = none ↔ first.field? name = none ∧ second.field? name = none := by
  refine ⟨fun missing => ?_, fun h => merges.ofNeither name h.1 h.2⟩
  cases hf : first.field? name with
  | none =>
    cases hg : second.field? name with
    | none => exact ⟨rfl, rfl⟩
    | some g => cases missing.symm.trans (merges.ofSecond name g hf hg)
  | some f =>
    cases hg : second.field? name with
    | none => cases missing.symm.trans (merges.ofFirst name f hf hg)
    | some g =>
      obtain ⟨h, found, -⟩ := merges.ofBoth name f g hf hg
      cases missing.symm.trans found

/-- A merged object of two objects without lazy nodes has none. -/
theorem lazyFree {a b m : Handle} {oa ob om : ObjectId}
    (merges : σ.Merges (σ.object oa) (σ.object ob) (σ.object om)) (populated : σ.JointsPopulated)
    (normal : (σ.object om).IsNormal) (ha : σ.node? a = some (.object oa))
    (hb : σ.node? b = some (.object ob)) (hm : σ.node? m = some (.object om))
    (fa : σ.LazyFree a) (fb : σ.LazyFree b) : σ.LazyFree m := by
  have part : ∀ {x o name f}, σ.node? x = some (.object o) → σ.LazyFree x →
      (σ.object o).field? name = some f → σ.LazyFree f.type := by
    intro x o name f hx fx hf
    exact fx.component hx (Query.mem_parts_of_field? hf)
  refine .of_components hm rfl fun g hg => ?_
  change g ∈ (σ.object om).parts at hg
  unfold Layout.parts at hg
  rw [merges.closed, List.mem_append] at hg
  rcases hg with hg | hg
  · obtain ⟨f, hf, rfl⟩ := List.mem_map.1 hg
    cases merges.comes_from (normal.field?_name hf) with
    | first hf hg => exact part ha fa hf
    | second hf hg => exact part hb fb hg
    | both hf hg meet _ => exact meet.lazyFree populated (part ha fa hf) (part hb fb hg)
  · cases hg

end Store.Merges

namespace View

variable {v : View ρ} {a b m t u : Handle} {oa ob om p : ObjectId} {first second merged : Layout}

/-- A target that asks of the fields that two objects share for no more than one of them has.  The
type of such a field in an object among its pieces has no objects and intersections among its own
pieces, or one of the two fits it; both fit an index signature that is for the field; and no piece is a
record. -/
structure AsksApart (v : View ρ) (first second : Layout) (t : Handle) : Prop where
  field : ∀ u p, v.Piece t u → v.store.node? u = some (.object p) →
    ∀ q ∈ (v.store.object p).fields, ∀ f g, first.field? q.name = some f →
      second.field? q.name = some g →
      (∀ x n, v.Piece q.type x → v.store.node? x = some n → n.isProduct = false) ∨
        v.Fits f.type q.type ∨ v.Fits g.type q.type
  index : ∀ u p j, v.Piece t u → v.store.node? u = some (.object p) →
    (v.store.object p).index = some j → ∀ name f g, first.field? name = some f →
      second.field? name = some g → v.admits j.key name = true →
      v.Fits f.type j.value ∧ v.Fits g.type j.value
  record : ∀ u key value, v.Piece t u → v.store.node? u ≠ some (.record key value)

/-- An object without an index signature is its only piece. -/
theorem AsksApart.of_object (ht : v.store.node? t = some (.object p))
    (closed : (v.store.object p).index = none)
    (field : ∀ q ∈ (v.store.object p).fields, ∀ f g, first.field? q.name = some f →
      second.field? q.name = some g →
      (∀ x n, v.Piece q.type x → v.store.node? x = some n → n.isProduct = false) ∨
        v.Fits f.type q.type ∨ v.Fits g.type q.type) : v.AsksApart first second t := by
  -- an object is its own only piece
  have only : ∀ {u n}, v.Piece t u → v.store.node? u = some n → n = .object p := by
    intro u n piece hu
    rw [eq_of_piece ht rfl rfl nofun piece, ht] at hu
    exact (Option.some.inj hu).symm
  constructor
  · intro u o piece hu
    obtain rfl := Node.object.inj (only piece hu)
    exact field
  · intro u o j piece hu hj
    obtain rfl := Node.object.inj (only piece hu)
    cases closed.symm.trans hj
  · intro u key value piece hu
    cases only piece hu

/-- The fields of an object fit themselves. -/
theorem fieldsFit_self (normal : merged.IsNormal) (closed : merged.index = none) :
    v.FieldsFit merged merged := by
  constructor
  · intro f hf g hg
    obtain rfl := Option.some.inj ((normal.field?_name hf).symm.trans hg)
    refine ⟨?_, .refl f.type⟩
    unfold Field.isAlwaysPresent
    cases f.optional <;> simp
  · intro f hf missing
    cases missing.symm.trans (normal.field?_name hf)
  · intro j hj
    cases closed.symm.trans hj

/-- Of two members one or the other declares a field. -/
theorem declares_pair_iff (ha : v.store.node? a = some (.object oa))
    (hb : v.store.node? b = some (.object ob)) (name : Atom) (g : Field) :
    v.Declares [a, b] name g
      ↔ (v.store.object oa).field? name = some g ∨ (v.store.object ob).field? name = some g := by
  constructor
  · rintro ⟨x, hx, o, ho, hg⟩
    rcases List.mem_cons.1 hx with rfl | hx
    · obtain rfl := Node.object.inj (Option.some.inj (ha.symm.trans ho))
      exact .inl hg
    · obtain rfl := List.mem_singleton.1 hx
      obtain rfl := Node.object.inj (Option.some.inj (hb.symm.trans ho))
      exact .inr hg
  · rintro (hg | hg)
    · exact ⟨a, by simp, oa, ha, hg⟩
    · exact ⟨b, by simp, ob, hb, hg⟩

section

variable (ha : v.store.node? a = some (.object oa)) (hb : v.store.node? b = some (.object ob))
  (fa : v.store.LazyFree a) (fb : v.store.LazyFree b) (whole : v.store.IsWhole)
  (populated : v.store.JointsPopulated)
  (apart : v.AsksApart (v.store.object oa) (v.store.object ob) t)
include ha hb fa fb whole populated apart

/-- A field that both have fits by one of the two types where it does by their intersection. -/
theorem fits_or_of_fits_shared {x y f : Field} {h : Handle} (piece : v.Piece t u)
    (hu : v.store.node? u = some (.object p)) (fu : v.store.LazyFree u)
    (hf : f ∈ (v.store.object p).fields) (hx : (v.store.object oa).field? f.name = some x)
    (hy : (v.store.object ob).field? f.name = some y) (meet : v.store.IsMeet x.type y.type h)
    (fits : v.Fits h f.type) : v.Fits x.type f.type ∨ v.Fits y.type f.type := by
  rcases apart.field u p piece hu f hf x y hx hy with single | one
  · have part : ∀ {x o g}, v.store.node? x = some (.object o) → v.store.LazyFree x →
        g ∈ (v.store.object o).parts → v.store.Has g ∧ v.store.LazyFree g := fun hx fx hg =>
      ⟨whole.has_component hx hg, fx.component hx hg⟩
    have target := part hu fu (Query.mem_parts_of_field hf)
    have left := part ha fa (Query.mem_parts_of_field? hx)
    have right := part hb fb (Query.mem_parts_of_field? hy)
    exact fits_or_of_fits_meet meet whole populated ⟨left.1, right.1⟩ left.2 right.2 target.1
      target.2 single fits
  · exact one

variable (merges : v.store.Merges (v.store.object oa) (v.store.object ob) (v.store.object om))
  (shapes : v.store.ShapesNormal)
include merges shapes

/-- Where the merged object fits an object that asks for no more, so do the two field by field. -/
theorem fitMerged_of_fieldsFit (piece : v.Piece t u) (hu : v.store.node? u = some (.object p))
    (fu : v.store.LazyFree u)
    (fields : v.FieldsFit (v.store.object om) (v.store.object p)) :
    v.FitMerged [a, b] (v.store.object p) := by
  have declares := declares_pair_iff ha hb
  have inFirst : ∀ {name g}, (v.store.object oa).field? name = some g →
      v.Declares [a, b] name g := fun h => (declares _ _).2 (.inl h)
  have inSecond : ∀ {name g}, (v.store.object ob).field? name = some g →
      v.Declares [a, b] name g := fun h => (declares _ _).2 (.inr h)
  constructor
  · rintro f hf ⟨g, hg⟩
    have there : (v.store.object om).field? f.name ≠ none := by
      rw [ne_eq, merges.field?_eq_none_iff]
      rintro ⟨hx, hy⟩
      rw [declares, hx, hy] at hg
      exact nomatch hg
    obtain ⟨h, found⟩ := Option.ne_none_iff_exists'.1 there
    obtain ⟨present, fits⟩ := fields.declared f hf h found
    -- a merged field is that of one member, or the meet of both
    cases merges.comes_from found with
    | first hx _ => exact ⟨present.imp_right fun k => ⟨h, inFirst hx, k⟩, h, inFirst hx, fits⟩
    | second _ hy => exact ⟨present.imp_right fun k => ⟨h, inSecond hy, k⟩, h, inSecond hy, fits⟩
    | @both x y hx hy meet presence =>
      constructor
      · refine present.imp_right fun always => ?_
        rw [presence, Bool.or_eq_true] at always
        exact always.elim (fun k => ⟨x, inFirst hx, k⟩) fun k => ⟨y, inSecond hy, k⟩
      -- the meet of two fields fits, so one of them does: they are asked apart
      · have one := fits_or_of_fits_shared ha hb fa fb whole populated apart piece hu fu hf hx hy
          meet fits
        exact one.elim (fun k => ⟨x, inFirst hx, k⟩) fun k => ⟨y, inSecond hy, k⟩
  · intro f hf undeclared
    have missing : (v.store.object om).field? f.name = none := by
      rw [merges.field?_eq_none_iff, Option.eq_none_iff_forall_ne_some,
        Option.eq_none_iff_forall_ne_some]
      exact ⟨fun g hg => undeclared ⟨g, inFirst hg⟩, fun g hg => undeclared ⟨g, inSecond hg⟩⟩
    exact (fields.undeclared f hf missing).1
  · intro j hj x hx o ho f hf admitted
    have found := (shapes.object o).field?_name hf
    have under : (v.store.object om).field? f.name = some f → v.Fits f.type j.value :=
      fun h => fields.under j hj f (Layout.of_field? h).1 admitted
    rcases List.mem_cons.1 hx with rfl | hx
    · obtain rfl := Node.object.inj (Option.some.inj (ha.symm.trans ho))
      -- under an index signature a shared field must fit on either side
      cases hy : (v.store.object ob).field? f.name with
      | none => exact under (merges.ofFirst _ f found hy)
      | some y => exact (apart.index u p j piece hu hj f.name f y found hy admitted).1
    · obtain rfl := List.mem_singleton.1 hx
      obtain rfl := Node.object.inj (Option.some.inj (hb.symm.trans ho))
      cases hx : (v.store.object oa).field? f.name with
      | none => exact under (merges.ofSecond _ f hx found)
      | some x => exact (apart.index u p j piece hu hj f.name x f hx found admitted).2

/-- **WHAT THE MERGED OBJECT FITS, THE TWO OBJECTS FIT TOGETHER**, if the target asks for no more of a
field that both have. -/
theorem fitTogether_of_merged (hm : v.store.node? m = some (.object om))
    (ft : v.store.LazyFree t) (h : v.Fits m t) :
    v.FitTogether [a, b] t := by
  have fm : v.store.LazyFree m := merges.lazyFree populated (shapes.object om) ha hb hm fa fb
  -- on the parts of a piece of the target
  suffices each : ∀ u, v.store.LazyFree u → v.Piece t u → v.Fits m u → v.FitTogether [a, b] u from
    each t ft .whole h
  intro u fu piece h
  induction fu using Store.LazyFree.induction with
  | step u fu ih =>
    have object : ∀ p, v.store.node? u = some (.object p) → v.FitTogether [a, b] u := by
      intro p hu
      refine .merged hu (fitMerged_of_fieldsFit ha hb fa fb whole populated apart merges shapes piece
        hu fu ?_)
      rcases (fits_objects_iff hm hu fm fu).1 h with rfl | ⟨fields, -⟩
      · obtain rfl := Node.object.inj (Option.some.inj (hm.symm.trans hu))
        exact fieldsFit_self (shapes.object om) merges.closed
      · exact fields
    rcases h.atOnce_or_node with atOnce | ⟨target, hu, notAtOnce⟩
    · rcases atOnce.cases_of_node hm nofun nofun with top | rfl
      · exact .alone List.mem_cons_self (AtOnce.fits (.top top))
      · exact object om hm
    · have lu : target.isLazy = false := fu.isLazy hu
      cases hms : v.store.alternatives? target with
      | some ms =>
        have among := (fits_into_alternatives_iff notAtOnce hm hu rfl rfl nofun hms).1 h
        obtain ⟨x, hx, fits⟩ := among.exists_of_node hm nofun
        exact .member hu hms hx (ih _ hu x (Store.mem_components_of_alternatives? hms hx)
          (piece.member hu hms hx) fits)
      | none =>
        by_cases it : target.kind = .intersection
        · obtain ⟨l, rfl⟩ := Node.exists_intersection it
          have all := (fits_into_intersection_iff notAtOnce hm hu rfl rfl).1 h
          exact .every hu fun x hx => ih _ hu x hx (piece.every hu hx) (all x hx)
        · cases target with
          | object p => exact object p hu
          | record key value => exact absurd hu (apart.record u key value piece)
          | union | enumeration => cases hms
          | intersection => exact absurd rfl it
          | lazy => cases lu
          | _ =>
            rw [fits_iff_nodes notAtOnce hm hu rfl rfl] at h
            cases h

end

/-- One object fits what it fits together with itself. -/
theorem fits_of_fitTogether_self (ha : v.store.node? a = some (.object oa))
    (closed : (v.store.object oa).index = none) (fa : v.store.LazyFree a)
    (h : v.FitTogether [a] t) (ft : v.store.LazyFree t) : v.Fits a t := by
  -- with a single object there is nothing to merge, so each way is one of its own
  induction h with
  | alone hm h => exact List.mem_singleton.1 hm ▸ h
  | member ht hms hx _ ih =>
    have part := Store.mem_components_of_alternatives? hms hx
    exact fits_into_alternatives ha ht rfl rfl hms hx (ih (ft.component ht part))
  | every ht _ ih =>
    refine fits_of_apart ha ht (.inl rfl) fun apart => ?_
    exact (fits_into_intersection_iff apart ha ht rfl rfl).2 fun x hx =>
      ih x hx (ft.component ht hx)
  | merged ht h =>
    have declares : ∀ name g, v.Declares [a] name g ↔ (v.store.object oa).field? name = some g := by
      intro name g
      constructor
      · rintro ⟨x, hx, o, ho, hg⟩
        obtain rfl := List.mem_singleton.1 hx
        obtain rfl := Node.object.inj (Option.some.inj (ha.symm.trans ho))
        exact hg
      · exact fun hg => ⟨a, List.mem_singleton_self a, oa, ha, hg⟩
    refine (fits_objects_iff ha ht fa ft).2 (.inr ⟨⟨?_, ?_, ?_⟩, ?_⟩)
    · intro f hf g hg
      obtain ⟨present, x, hx, fits⟩ := h.declared f hf ⟨g, (declares _ g).2 hg⟩
      obtain rfl := Option.some.inj (hg.symm.trans ((declares _ x).1 hx))
      refine ⟨present.imp_right ?_, fits⟩
      rintro ⟨y, hy, always⟩
      obtain rfl := Option.some.inj (hg.symm.trans ((declares _ y).1 hy))
      exact always
    · intro f hf missing
      refine ⟨h.undeclared f hf ?_, fun i hi => ?_⟩
      · rintro ⟨g, hg⟩
        cases missing.symm.trans ((declares _ g).1 hg)
      · cases closed.symm.trans hi
    · exact fun j hj => h.under j hj a (List.mem_singleton_self a) oa ha
    · intro i j hi
      cases closed.symm.trans hi

end View

/-! ## §3. What the checker finds -/

/-- **AN INTERSECTION OF OBJECTS AND THE MERGED OBJECT.**  The intersection of two objects without index
signatures is found to fit a target exactly where the two fit it together.  Where the object that merges
their fields is found to fit, so is the intersection, if the target asks for no more of a field that both
have than one of them has. -/
theorem related_merged (run : Runner ρ) (policy : Policy) (σ : Store ρ) (whole : σ.IsWhole)
    (populated : σ.JointsPopulated) (shapes : σ.ShapesNormal) (a b i t : Handle) (oa ob : ObjectId)
    (ha : σ.node? a = some (.object oa)) (hb : σ.node? b = some (.object ob))
    (closed : (σ.object oa).index = none ∧ (σ.object ob).index = none) (fa : σ.LazyFree a)
    (fb : σ.LazyFree b) (ft : σ.LazyFree t) (meet : σ.IsMeet a b i)
    (within : (Store.relate run policy .assignable i t σ).1.exceeded = false) :
    ((Store.relate run policy .assignable i t σ).1.related = true
      ↔ (View.of run σ policy.flags).FitTogether [a, b] t) ∧
    ∀ m om, σ.node? m = some (.object om) →
      σ.Merges (σ.object oa) (σ.object ob) (σ.object om) →
      (View.of run σ policy.flags).AsksApart (σ.object oa) (σ.object ob) t →
      (Store.relate run policy .assignable m t σ).1.exceeded = false →
      (Store.relate run policy .assignable m t σ).1.related = true →
      (Store.relate run policy .assignable i t σ).1.related = true := by
  let v := View.of run σ policy.flags
  have fi : σ.LazyFree i := meet.lazyFree populated fa fb
  have decided : ∀ {s}, σ.LazyFree s →
      (Store.relate run policy .assignable s t σ).1.exceeded = false →
      ((Store.relate run policy .assignable s t σ).1.related = true ↔ v.Fits s t) := fun fs within =>
    (relate_iff fs.atRest ft.atRest within).trans View.relates_assignable
  -- two equal members are joined to the object itself, two different ones to an intersection
  have together : v.Fits i t ↔ v.FitTogether [a, b] t := by
    rcases meet.of_objects ha hb with ⟨rfl, rfl⟩ | ⟨l, hl, same⟩
    · refine ⟨fun h => .alone List.mem_cons_self h, fun h => ?_⟩
      exact View.fits_of_fitTogether_self ha closed.1 fa (h.congr fun m => by simp) ft
    · have each : v.AreClosedObjects (v.store.list l) := by
        intro m hm
        rcases List.mem_cons.1 ((same m).1 hm) with rfl | hm
        · exact ⟨oa, ha, closed.1⟩
        · obtain rfl := List.mem_singleton.1 hm
          exact ⟨ob, hb, closed.2⟩
      have inhabited : v.store.list l ≠ [] :=
        List.ne_nil_of_mem ((same a).2 List.mem_cons_self)
      rw [View.fits_together_iff hl each inhabited ft]
      exact ⟨fun h => h.congr same, fun h => h.congr fun m => (same m).symm⟩
  refine ⟨(decided fi within).trans together, fun m om hm merges apart withinMerged h => ?_⟩
  have fm : σ.LazyFree m := merges.lazyFree populated (shapes.object om) ha hb hm fa fb
  rw [decided fi within, together]
  exact View.fitTogether_of_merged ha hb fa fb whole populated apart merges shapes hm ft
    ((decided fm withinMerged).1 h)

/-- Objects of one field. -/
theorem Store.Merges.of_single {σ : Store ρ} {f g h : Field} (second : g.name = f.name)
    (merged : h.name = f.name) (meet : σ.IsMeet f.type g.type h.type)
    (present : h.isAlwaysPresent = (f.isAlwaysPresent || g.isAlwaysPresent)) :
    σ.Merges ⟨[f], none⟩ ⟨[g], none⟩ ⟨[h], none⟩ := by
  -- with one field each, a field is found under the one name they share
  have found : ∀ {x y : Field} {name : Atom}, x.name = f.name →
      ((⟨[x], none⟩ : Layout).field? name = some y ↔ y = x ∧ f.name = name) := by
    intro x y name same
    unfold Layout.field?
    rw [List.find?_singleton, same]
    by_cases here : f.name = name
    · simp [here, eq_comm]
    · simp [here]
  have missing : ∀ {x : Field} {name : Atom}, x.name = f.name →
      ((⟨[x], none⟩ : Layout).field? name = none ↔ f.name ≠ name) := by
    intro x name same
    rw [Option.eq_none_iff_forall_ne_some]
    exact ⟨fun h here => h x ((found same).2 ⟨rfl, here⟩), fun h y hy => h ((found same).1 hy).2⟩
  refine ⟨rfl, fun name x hx hy => ?_, fun name y hx hy => ?_, fun name x y hx hy => ?_,
    fun name hx _ => (missing merged).2 ((missing rfl).1 hx)⟩
  · exact absurd ((found rfl).1 hx).2 ((missing second).1 hy)
  · exact absurd ((found second).1 hy).2 ((missing rfl).1 hx)
  · obtain ⟨rfl, here⟩ := (found rfl).1 hx
    obtain ⟨rfl, -⟩ := (found second).1 hy
    exact ⟨h, (found merged).2 ⟨rfl, here⟩, meet, present⟩

/-- Two objects with one field, in one for strings and numbers where it is there, in the other for
strings and truth values; their intersection, their merged object, and an object that has strings and
numbers in this field. -/
def sharedField : Listing Handle where
  nodes := [.union ⟨0⟩, .union ⟨1⟩, .object ⟨0⟩, .object ⟨1⟩, .intersection ⟨2⟩, .intersection ⟨3⟩,
    .object ⟨2⟩, .object ⟨3⟩]
  lists := [[⟨8⟩, ⟨9⟩], [⟨7⟩, ⟨8⟩], [⟨15⟩, ⟨16⟩], [⟨13⟩, ⟨14⟩]]
  objects := [{ fields := [{ name := .none, type := ⟨13⟩, optional := true }] },
    { fields := [{ name := .none, type := ⟨14⟩ }] },
    { fields := [{ name := .none, type := ⟨18⟩ }] },
    { fields := [{ name := .none, type := ⟨13⟩ }] }]

/-- All it speaks of is there: the name of the field is the empty string, which every store holds. -/
theorem isComplete_sharedField : sharedField.isComplete = true := by
  let σ := sharedField.store
  have spelled : σ.Spells .none :=
    congrArg Option.isSome (Pool.resolve?_none (fun text => Pool.shardOf ⟨text.length⟩) [])
  have named : ∀ i s, σ.objects.get? i = some s → s.fields.all (·.name == .none) = true :=
    Listing.forall_objects (by decide)
  -- the nodes are checked by computing, the names of the fields by their texts
  have held : ∀ n ∈ sharedField.nodes, n.isLazy = false ∧
      (σ.keeps n && (σ.components n).all fun g => (σ.node? g).isSome) = true := by decide +kernel
  refine Bool.and_eq_true_iff.2 ⟨List.all_eq_true.2 fun n hn => ?_, rfl⟩
  obtain ⟨notLazy, parts⟩ := held n hn
  refine Bool.and_eq_true_iff.2 ⟨parts, ?_⟩
  cases n with
  | lazy => cases notLazy
  | object o =>
    obtain ⟨s, hs⟩ := Option.isSome_iff_exists.1 (Bool.and_eq_true_iff.1 parts).1
    have shape : σ.object o = s := by
      unfold Store.object
      rw [hs]
      rfl
    refine List.all_eq_true.2 fun f hf => ?_
    rw [shape] at hf
    rw [beq_iff_eq.1 (List.all_eq_true.1 (named _ s hs) f hf)]
    exact spelled
  | _ => rfl

/-- Neither of the two objects fits alone, one for its optional field and the other for the type of
its own.  The merged object is found to fit, and so is the intersection. -/
theorem related_sharedField :
    (Store.relate pure {} .assignable ⟨19⟩ ⟨20⟩ sharedField.store).1.related = true ∧
      (Store.relate pure {} .assignable ⟨17⟩ ⟨20⟩ sharedField.store).1.related = true := by
  let σ := sharedField.store
  have orderly : Store.Orderly pure σ := sharedField.orderly isComplete_sharedField
  have whole := orderly.whole
  have populated : σ.JointsPopulated := .of_allJoints (by decide +kernel)
  have shapes : σ.ShapesNormal := by
    apply Listing.shapesNormal
    simp [sharedField, Layout.IsNormal]
  have has : ∀ h ∈ [(⟨13⟩ : Handle), ⟨14⟩, ⟨15⟩, ⟨16⟩], σ.Has h := by
    have entries : ∀ h ∈ [(⟨13⟩ : Handle), ⟨14⟩, ⟨15⟩, ⟨16⟩], (σ.node? h).isSome = true := by
      decide +kernel
    exact fun h hh => Option.isSome_iff_exists.1 (entries h hh)
  have nodes : σ.node? ⟨15⟩ = some (.object ⟨0⟩) ∧ σ.node? ⟨16⟩ = some (.object ⟨1⟩) ∧
      σ.node? ⟨19⟩ = some (.object ⟨2⟩) ∧ σ.node? ⟨20⟩ = some (.object ⟨3⟩) := by decide +kernel
  have found : (Store.relate pure {} .assignable ⟨19⟩ ⟨20⟩ σ).1 = ⟨.assignable, true, false⟩ ∧
      (Store.relate pure {} .assignable ⟨17⟩ ⟨20⟩ σ).1.exceeded = false := by
    simp only [relate_eq_finding]
    decide +kernel
  have objects : σ.IsMeet ⟨15⟩ ⟨16⟩ ⟨17⟩ := by
    have left : Joined.intersection (σ.flattenIntersections [⟨15⟩, ⟨16⟩]) = .several [⟨15⟩, ⟨16⟩] := by
      decide +kernel
    have list : σ.lists.get? 2 = some [⟨15⟩, ⟨16⟩] := by decide +kernel
    exact .of_node whole (has _ (by decide)) (has _ (by decide)) left list rfl
  have types : σ.IsMeet ⟨13⟩ ⟨14⟩ ⟨18⟩ := by
    have left : Joined.intersection (σ.flattenIntersections [⟨13⟩, ⟨14⟩]) = .several [⟨13⟩, ⟨14⟩] := by
      decide +kernel
    have list : σ.lists.get? 3 = some [⟨13⟩, ⟨14⟩] := by decide +kernel
    exact .of_node whole (has _ (by decide)) (has _ (by decide)) left list rfl
  have merges : σ.Merges (σ.object ⟨0⟩) (σ.object ⟨1⟩) (σ.object ⟨2⟩) :=
    Store.Merges.of_single rfl rfl types rfl
  have apart : (View.of pure σ {}).AsksApart (σ.object ⟨0⟩) (σ.object ⟨1⟩) ⟨20⟩ := by
    refine .of_object nodes.2.2.2 rfl fun q hq f g hf _ => ?_
    -- the first of the two has the very type
    obtain rfl := List.mem_singleton.1 hq
    obtain rfl := List.mem_singleton.1 (Layout.of_field? hf).1
    exact .inr (.inl (.refl ⟨13⟩))
  have merged := related_merged pure {} σ whole populated shapes ⟨15⟩ ⟨16⟩ ⟨17⟩ ⟨20⟩ ⟨0⟩ ⟨1⟩ nodes.1
    nodes.2.1 (by decide +kernel) ⟨3, by decide +kernel⟩ ⟨3, by decide +kernel⟩
    ⟨3, by decide +kernel⟩ objects found.2
  have related := congrArg Finding.related found.1
  exact ⟨related, merged.2 ⟨19⟩ ⟨2⟩ nodes.2.2.1 merges apart (congrArg Finding.exceeded found.1) related⟩

end Assignability
