/-
  Assignability.Proofs.Relation.OpenTuple
  ───────────────────────────────────────
  **ARRAYS, AND TUPLES THAT HAVE ONLY A REST.**

  An array and the tuple without items whose rest is the element of the
  array have the same values.  A source is compared with the two by
  different rules: array with array and tuple with array, array with tuple
  and tuple with tuple, and the last asks for a number of items that the
  policy has a say in.  All of them come to the same, which is that every
  part of the source fits the element (`FitsEach`).

  Main statements:
    • `fits_list_iff` — what fits such a target, be it the array or the
      tuple,
    • `related_array_iff` — and so the checker finds the same of both.
-/
import Assignability.Proofs.Relation.Brand
import Assignability.Proofs.Relation.Closed
import Assignability.Proofs.Relation.Plain

namespace Assignability

variable {ρ : Type}

namespace View

variable {v : View ρ} {s t element : Handle} {target : Node}

/-! ## §1. Lists of an element -/

/-- An array of an element, or the tuple with only that for its rest. -/
inductive IsListOf (v : View ρ) (element : Handle) : Node → Prop
  | array : IsListOf v element (.array element)
  | tuple {o : TupleId} (h : v.store.tuple o = ⟨[], some element⟩) : IsListOf v element (.tuple o)

namespace IsListOf

variable (list : v.IsListOf element target)
include list

/-- Arrays and open tuples are shapes. -/
theorem isShape : target.isShape = true := by
  cases list <;> rfl

theorem isLazy : target.isLazy = false := by
  cases list <;> rfl

theorem alternatives? : v.store.alternatives? target = none := by
  cases list <;> rfl

theorem kind_ne : target.kind ≠ .intrinsic ∧ target.kind ≠ .intersection := by
  cases list <;> exact ⟨nofun, nofun⟩

/-- Its one part is the element. -/
theorem mem_components_iff {a : Handle} : a ∈ v.store.components target ↔ a = element := by
  cases list with
  | array => exact List.mem_singleton
  | tuple h =>
    show a ∈ (v.store.tuple _).parts ↔ _
    rw [h]
    exact List.mem_singleton

/-- Objects do not make up a list. -/
theorem not_fitAsOne (members : List Handle) : ¬ v.FitAsOne members target := by
  cases list <;> exact nofun

/-- By the rules a list is fit by arrays and tuples, part by part and whatever their number. -/
theorem matches_iff {source : Node} : v.Matches source target
    ↔ ((∃ b, source = .array b) ∨ ∃ o, source = .tuple o) ∧
      ∀ a ∈ v.store.components source, v.Fits a element := by
  have one : ∀ b, (∀ a ∈ v.store.components (.array b), v.Fits a element) ↔ v.Fits b element :=
    fun b => List.forall_mem_singleton
  cases list with
  | array =>
    constructor
    · intro h
      cases h with
      | array h => exact ⟨.inl ⟨_, rfl⟩, (one _).2 h⟩
      | tupleToArray h => exact ⟨.inr ⟨_, rfl⟩, h⟩
    · rintro ⟨⟨b, rfl⟩ | ⟨o, rfl⟩, parts⟩
      · exact .array ((one b).1 parts)
      · exact .tupleToArray parts
  | @tuple p hp =>
    -- against a rest alone the numbers of items always fit, and every part is paired with it
    have sequences : ∀ s : Sequence, v.SequencesFit .atLeast s (v.store.tuple p)
        ↔ ∀ a ∈ s.parts, v.Fits a element := by
      intro s
      have arity : s.arityFits v.flags .atLeast ⟨[], some element⟩ = true := by
        simp [Sequence.arityFits]
      have pairs : s.pairs ⟨[], some element⟩ = s.parts.map fun a => (a, element) := by
        simp [Sequence.pairs, Sequence.parts]
      unfold SequencesFit
      rw [hp, arity, pairs, List.forall_mem_map]
      exact and_iff_right rfl
    constructor
    · intro h
      cases h with
      | tuple h => exact ⟨.inr ⟨_, rfl⟩, (sequences _).1 h⟩
      | arrayToTuple _ hr h =>
        rw [hp] at hr
        obtain rfl := Option.some.inj hr
        exact ⟨.inl ⟨_, rfl⟩, (one _).2 h⟩
    · rintro ⟨⟨b, rfl⟩ | ⟨o, rfl⟩, parts⟩
      · exact .arrayToTuple (by rw [hp]) (by rw [hp]) ((one b).1 parts)
      · exact .tuple ((sequences _).2 parts)

end IsListOf

/-! ## §2. What fits a list -/

/-- A source all of whose parts fit an element. -/
inductive FitsEach (v : View ρ) (element : Handle) : Handle → Prop
  | bottom : FitsEach v element .never
  | unchecked (hf : v.flags.strictAny = false) : FitsEach v element .any
  /-- An array or a tuple, part by part. -/
  | parts {s : Handle} {n : Node} (hs : v.store.node? s = some n)
    (hn : (∃ b, n = .array b) ∨ ∃ o, n = .tuple o)
    (h : ∀ a ∈ v.store.components n, v.Fits a element) : FitsEach v element s
  /-- Every member of a union. -/
  | every {s : Handle} {n : Node} {members : List Handle} (hs : v.store.node? s = some n)
    (ha : v.store.alternatives? n = some members) (h : ∀ m ∈ members, FitsEach v element m) :
    FitsEach v element s
  /-- Some member of an intersection. -/
  | member {s m : Handle} {l : ListId} (hs : v.store.node? s = some (.intersection l))
    (hm : m ∈ v.store.list l) (h : FitsEach v element m) : FitsEach v element s
  /-- The base of a brand. -/
  | base {s b : Handle} {brand : Atom} (hs : v.store.node? s = some (.branded b brand))
    (h : FitsEach v element b) : FitsEach v element s

section

variable (ht : v.store.node? t = some target) (list : v.IsListOf element target)
include ht list

/-- At once a list is fit by what fits everything, and by itself. -/
theorem FitsEach.of_atOnce (h : v.AtOnce s t) : v.FitsEach element s := by
  rcases h.cases_into_node ht list.kind_ne.1 with (rfl | ⟨rfl, hf⟩) | rfl
  · exact .bottom
  · exact .unchecked hf
  · have parts : ∀ a ∈ v.store.components target, v.Fits a element :=
      fun a ha => list.mem_components_iff.1 ha ▸ .refl a
    refine .parts ht ?_ parts
    cases list with
    | array => exact .inl ⟨_, rfl⟩
    | tuple => exact .inr ⟨_, rfl⟩

/-- What fits element by element fits the list. -/
theorem fits_of_fitsEach (h : v.FitsEach element s) : v.Fits s t := by
  -- on the ways to fit element by element, each of them a rule
  induction h with
  | bottom => exact AtOnce.fits (.bottom rfl)
  | unchecked hf => exact AtOnce.fits (.unchecked rfl hf)
  | @parts s n hs hn h =>
    have form : n.isLeaf = false ∧ n.isShape = true := by
      rcases hn with ⟨b, rfl⟩ | ⟨o, rfl⟩ <;> exact ⟨rfl, rfl⟩
    refine fits_of_apart hs ht (.inl form.1) fun apart => ?_
    exact (fits_iff_matches apart hs ht form.2 list.isShape).2 (list.matches_iff.2 ⟨hn, h⟩)
  | every hs ha _ ih => exact fits_alternatives hs ht list.isLazy ha ih
  | member hs hm _ ih =>
    refine fits_of_apart hs ht (.inl rfl) fun apart => ?_
    exact (fits_intersection_iff apart hs ht list.isLazy list.alternatives? list.kind_ne.2).2
      (.inl ⟨_, hm, ih⟩)
  | base hs _ ih =>
    refine fits_iff.2 (justifies_branded hs ht list.isLazy list.alternatives? list.kind_ne.2 ?_ ?_)
    · exact fun _ => fits_eq_true.2 ih
    · rintro b rfl
      cases list

/-- Without lazy nodes in it, nothing else fits. -/
theorem fitsEach_of_fits (fs : v.store.LazyFree s) (h : v.Fits s t) : v.FitsEach element s := by
  -- on the source, which has no lazies: it is taken apart until its parts are reached
  induction fs using Store.LazyFree.induction with
  | step s fs ih =>
    rcases h.atOnce_or with atOnce | apart
    · exact .of_atOnce ht list atOnce
    obtain ⟨source, hs⟩ := h.exists_source apart
    have ls := fs.isLazy hs
    cases ha : v.store.alternatives? source with
    | some members =>
      have every := (fits_alternatives_iff apart hs ht list.isLazy ha).1 h
      exact .every hs ha fun m hm =>
        ih _ hs m (Store.mem_components_of_alternatives? ha hm) (every m hm)
    | none =>
      cases source with
      | enumeration | union => cases ha
      | lazy => cases ls
      | intersection l =>
        rcases (fits_intersection_iff apart hs ht list.isLazy list.alternatives?
          list.kind_ne.2).1 h with ⟨m, hm, fits⟩ | asOne
        · exact .member hs hm (ih _ hs m hm fits)
        · exact absurd asOne (list.not_fitAsOne _)
      -- the brand is not that of a list, so the base is what fits
      | branded b brand =>
        have whole : target.takesWhole brand = true := by cases list <;> rfl
        have other : ¬ (t = .unknown ∨ t = .any ∨ s = t) := by
          intro atOnce
          rw [atOnce?_of_branded hs, if_pos atOnce] at apart
          cases apart
        exact .base hs (ih _ hs b (List.mem_singleton_self b)
          ((fits_branded_whole hs ht whole other).1 h))
      | intrinsic | literal =>
        exact absurd h (not_fits_of_isLeaf apart hs ht (.inl ⟨rfl, list.isShape⟩))
      -- no rule takes a record to a list
      | record key value =>
        have rule : (Query.nodes v.flags s t (.record key value) target).eval v v.keysFit v.fits
            = .fails := by
          cases list <;> rfl
        rw [fits_iff_nodes apart hs ht rfl list.isLazy, rule] at h
        cases h
      | _ =>
        obtain ⟨form, parts⟩ :=
          list.matches_iff.1 ((fits_iff_matches apart hs ht rfl list.isShape).1 h)
        exact .parts hs form parts

/-- **ARRAYS, AND TUPLES WITH ONLY A REST, ARE FIT BY WHAT HAS ALL ITS PARTS FIT THE ELEMENT.** -/
theorem fits_list_iff (fs : v.store.LazyFree s) : v.Fits s t ↔ v.FitsEach element s :=
  ⟨fitsEach_of_fits ht list fs, fits_of_fitsEach ht list⟩

end

end View

/-! ## §3. Findings -/

/-- **AS A TARGET AN ARRAY IS THE TUPLE THAT HAS ONLY A REST**, for sources and elements without lazy
nodes. -/
theorem related_array_iff (run : Runner ρ) (policy : Policy) (σ : Store ρ)
    (s element array tuple : Handle) (hs : σ.LazyFree s) (he : σ.LazyFree element)
    (ha : σ.node? array = some (.array element)) (o : TupleId)
    (ht : σ.node? tuple = some (.tuple o)) (ho : σ.tuple o = ⟨[], some element⟩)
    (within : (Store.relate run policy .assignable s array σ).1.exceeded = false ∧
      (Store.relate run policy .assignable s tuple σ).1.exceeded = false) :
    (Store.relate run policy .assignable s array σ).1.related = true
      ↔ (Store.relate run policy .assignable s tuple σ).1.related = true := by
  have decided : ∀ {t : Handle} {target : Node}, σ.node? t = some target →
      (View.of run σ policy.flags).IsListOf element target →
      (Store.relate run policy .assignable s t σ).1.exceeded = false →
      ((Store.relate run policy .assignable s t σ).1.related = true
        ↔ (View.of run σ policy.flags).FitsEach element s) := by
    intro t target ht list within
    have ft : σ.LazyFree t := .of_components ht list.isLazy fun a ha =>
      (list.mem_components_iff (v := .of run σ policy.flags)).1 ha ▸ he
    rw [relate_iff hs.atRest ft.atRest within, View.relates_assignable]
    exact View.fits_list_iff ht list hs
  rw [decided ha .array within.1, decided ht (.tuple ho) within.2]

/-- Strings or numbers, the array of them and the tuple with only a rest of them; and an array of
strings or, with a brand, a tuple of a string and any numbers. -/
def stringsAndNumbers : Store Handle :=
  let listed : Listing Handle := {
    nodes := [.union ⟨0⟩, .array ⟨13⟩, .tuple ⟨0⟩, .array Intrinsic.string.handle, .tuple ⟨1⟩,
      .branded ⟨17⟩ ⟨64⟩, .union ⟨1⟩]
    lists := [[Intrinsic.string.handle, Intrinsic.number.handle], [⟨16⟩, ⟨18⟩]] }
  { listed.store with
    tuples := .ofList [⟨[], some ⟨13⟩⟩,
      ⟨[Intrinsic.string.handle], some Intrinsic.number.handle⟩] (by decide) }

/-- The last are assignable to the array, and so to the tuple. -/
theorem related_stringsAndNumbers :
    (Store.relate pure {} .assignable ⟨19⟩ ⟨14⟩ stringsAndNumbers).1.related = true ∧
      (Store.relate pure {} .assignable ⟨19⟩ ⟨15⟩ stringsAndNumbers).1.related = true := by
  have within : (Store.relate pure {} .assignable ⟨19⟩ ⟨14⟩ stringsAndNumbers).1.exceeded = false ∧
      (Store.relate pure {} .assignable ⟨19⟩ ⟨15⟩ stringsAndNumbers).1.exceeded = false := by
    simp only [relate_eq_finding]
    decide +kernel
  have array : (Store.relate pure {} .assignable ⟨19⟩ ⟨14⟩ stringsAndNumbers).1.related = true := by
    rw [relate_eq_finding]
    decide +kernel
  refine ⟨array, ?_⟩
  rw [← related_array_iff pure {} stringsAndNumbers ⟨19⟩ ⟨13⟩ ⟨14⟩ ⟨15⟩ ⟨4, by decide +kernel⟩
    ⟨2, by decide +kernel⟩ (by decide +kernel) ⟨0⟩ (by decide +kernel) (by decide +kernel) within]
  exact array

end Assignability
