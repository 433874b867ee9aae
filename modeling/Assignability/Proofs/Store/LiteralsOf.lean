/-
  Assignability.Proofs.Store.LiteralsOf
  ─────────────────────────────────────
  **ENUMERATIONS AND UNIONS OF THE SAME LITERALS.**

  A literal is built once, under its key.  So a list of values has one set
  of literals in a store (`Store.literalsOf`), whenever and in whatever
  order they are built.  An enumeration lists them as they were declared,
  and their union by their handles; of a single literal there is no union
  but the literal.

  Main statements: `exists_enumeration`, `exists_literalUnion`.
-/
import Assignability.Proofs.Store.Joined
import Mathlib.Data.List.Basic
import Mathlib.Data.Set.Basic

namespace Assignability

variable {ρ : Type}

namespace Store

variable {σ τ : Store ρ} {values : List Literal} {h x : Handle}

/-! ## §1. The literals of some values -/

/-- The literals that stand for the listed values. -/
def literalsOf (σ : Store ρ) (values : List Literal) : Set Handle :=
  {x | ∃ value ∈ values, ∃ n, σ.node? x = some n ∧ n.key = (Node.literal value).key}

theorem exists_literal_of_mem (hx : x ∈ σ.literalsOf values) :
    ∃ value, σ.node? x = some (.literal value) := by
  obtain ⟨value, -, n, hn, key⟩ := hx
  have kind : n.kind = .literal := by
    rw [← Node.kind_key, key]
    rfl
  cases n with
  | literal value => exact ⟨value, hn⟩
  | _ => cases kind

/-- The literals that are built are all there are. -/
theorem mem_mapM_literal (grows : (values.mapM literal σ).2.Grows τ) :
    x ∈ (values.mapM literal σ).1 ↔ x ∈ τ.literalsOf values := by
  -- on the values; each literal is interned in the store that the ones before it left
  induction values generalizing σ with
  | nil =>
    refine iff_of_false List.not_mem_nil ?_
    rintro ⟨value, hv, -⟩
    exact List.not_mem_nil hv
  | cons value values ih =>
    obtain ⟨n, hn, key⟩ := Table.exists_get?_intern_fst σ.nodes (.literal value)
    have later := grows_mapM (fun v => grows_intern (.literal v)) values (literal value σ).2
    rw [List.mapM_cons, bind_apply, bind_apply] at grows ⊢
    have first : τ.node? (literal value σ).1 = some n := grows.node? (later.node? hn)
    have rest := ih grows
    constructor
    · intro hx
      rcases List.mem_cons.1 hx with rfl | hx
      · exact ⟨value, List.mem_cons_self, n, first, key⟩
      · obtain ⟨v, hv, h⟩ := rest.1 hx
        exact ⟨v, List.mem_cons_of_mem _ hv, h⟩
    · rintro ⟨v, hv, m, hm, same⟩
      rcases List.mem_cons.1 hv with rfl | hv
      · exact List.mem_cons.2 (.inl (handle_eq_of_key_eq hm first (same.trans key.symm)))
      · exact List.mem_cons_of_mem _ (rest.2 ⟨v, hv, m, hm, same⟩)

theorem mapM_literal_ne_nil (nonempty : values ≠ []) (σ : Store ρ) :
    (values.mapM literal σ).1 ≠ [] := by
  obtain ⟨value, values, rfl⟩ := List.exists_cons_of_ne_nil nonempty
  rw [List.mapM_cons, bind_apply, bind_apply]
  exact List.cons_ne_nil _ _

theorem nonempty_literalsOf (nonempty : values ≠ []) (grows : (values.mapM literal σ).2.Grows τ) :
    (τ.literalsOf values).Nonempty := by
  obtain ⟨m, hm⟩ := List.exists_mem_of_ne_nil _ (mapM_literal_ne_nil nonempty σ)
  exact ⟨m, (mem_mapM_literal grows).1 hm⟩

/-! ## §2. Enumerations and unions of them -/

/-- The union of the types of the listed values. -/
def literalUnion (values : List Literal) : Build ρ Handle := do
  union (← values.mapM literal)

theorem grows_of_enumeration (grows : (enumeration values σ).2.Grows τ) :
    (values.mapM literal σ).2.Grows τ := by
  unfold enumeration at grows
  rw [bind_apply] at grows
  split at grows
  · exact grows
  · exact ((grows_internList _ _).trans (grows_intern _ _)).trans grows

theorem grows_of_literalUnion (grows : (literalUnion values σ).2.Grows τ) :
    (values.mapM literal σ).2.Grows τ :=
  (grows_carryOut (.union (values.mapM literal σ).1) _).trans grows

/-- An enumeration lists the literals of its values. -/
theorem exists_enumeration (nonempty : values ≠ []) (grows : (enumeration values σ).2.Grows τ) :
    ∃ l, τ.node? (enumeration values σ).1 = some (.enumeration l) ∧
      ∀ x, x ∈ τ.list l ↔ x ∈ τ.literalsOf values := by
  let members := dedup (values.mapM literal σ).1
  have listed : ∀ x, x ∈ members ↔ x ∈ (values.mapM literal σ).1 := fun x => mem_dedup
  obtain ⟨m, hm⟩ := List.exists_mem_of_ne_nil _ (mapM_literal_ne_nil nonempty σ)
  have some : ¬ members.isEmpty = true := fun none =>
    List.ne_nil_of_mem ((listed m).2 hm) (List.isEmpty_iff.1 none)
  have built : enumeration values σ
      = (Joined.several members).build .enumeration (values.mapM literal σ).2 := by
    unfold enumeration
    rw [bind_apply]
    exact congrFun (if_neg some) _
  have earlier := grows_of_enumeration grows
  rw [built] at grows ⊢
  obtain ⟨l, node, list⟩ := build_several (fun _ => by exact nofun) members grows
  refine ⟨l, node, fun x => ?_⟩
  rw [list, listed, mem_mapM_literal earlier]

/-- The union of literals is the one there is, or lists them. -/
theorem exists_literalUnion (nonempty : values ≠ []) (grows : (literalUnion values σ).2.Grows τ) :
    (∀ x, x ∈ τ.literalsOf values ↔ x = (literalUnion values σ).1) ∨
      ∃ l, τ.node? (literalUnion values σ).1 = some (.union l) ∧
        ∀ x, x ∈ τ.list l ↔ x ∈ τ.literalsOf values := by
  let literals := (values.mapM literal σ).1
  let υ := (values.mapM literal σ).2
  have node : ∀ x ∈ literals, ∃ value, υ.node? x = some (.literal value) := fun x hx =>
    exists_literal_of_mem ((mem_mapM_literal (.refl υ)).1 hx)
  -- literals are no unions, so there is nothing to flatten
  have pieces : literals.flatMap (υ.piecesOf .union) = literals := by
    have itself : ∀ x ∈ literals, υ.piecesOf .union x = [x] := by
      intro x hx
      obtain ⟨value, hn⟩ := node x hx
      rw [piecesOf_of_node hn, if_neg fun h => nomatch h]
    rw [List.flatMap_congr itself, List.flatMap_singleton']
  -- and none of them is an end, so there is nothing to absorb
  have inner : ∀ x ∈ literals, x ∉ ends := by
    intro x hx
    obtain ⟨value, hn⟩ := node x hx
    have other : ∀ k : Intrinsic, x ≠ k.handle := by
      rintro k rfl
      rw [υ.node?_handle k] at hn
      cases hn
    exact not_mem_ends.2 ⟨other .any, other .unknown, other .never⟩
  have earlier : υ.Grows τ := grows_of_literalUnion grows
  obtain ⟨ms, joined, listed⟩ := Joined.union_of_inner inner
  have some : ms ≠ [] := by
    obtain ⟨m, hm⟩ := List.exists_mem_of_ne_nil _ (mapM_literal_ne_nil nonempty σ)
    exact List.ne_nil_of_mem ((listed m).2 hm)
  have built : literalUnion values σ = (Joined.ofMembers ms).build .union υ := by
    unfold literalUnion
    rw [bind_apply, union_eq_build]
    show (Joined.union (literals.flatMap (υ.piecesOf .union))).build .union υ = _
    rw [pieces, joined]
  rw [built] at grows ⊢
  have all : ∀ x, x ∈ (Joined.ofMembers ms).toList ↔ x ∈ τ.literalsOf values := fun x => by
    rw [Joined.toList_ofMembers some, listed, mem_mapM_literal earlier]
  rcases build_cases (fun _ => by exact nofun) (Joined.ofMembers ms) grows with single | ⟨l, node, list⟩
  · left
    intro x
    rw [← all, single, List.mem_singleton]
  · right
    refine ⟨l, node, fun x => ?_⟩
    rw [list, all]

/-! ## §3. What is there already -/

section

variable {handles ms : List Handle} {l : ListId}
  (literals : List.Forall₂ (fun value x => σ.node? x = some (.literal value)) values handles)
include literals

theorem mapM_literal_of_nodes : values.mapM literal σ = (handles, σ) := by
  induction literals with
  | nil => rfl
  | cons first _ ih =>
    rw [List.mapM_cons, bind_apply, bind_apply]
    unfold literal at ih ⊢
    rw [intern_of_node first, ih]
    rfl

theorem enumeration_of_nodes (nonempty : dedup handles ≠ [])
    (list : σ.lists.get? l.number = some (dedup handles))
    (node : σ.node? h = some (.enumeration l)) : enumeration values σ = (h, σ) := by
  unfold enumeration
  rw [bind_apply, mapM_literal_of_nodes literals]
  dsimp only
  rw [if_neg fun none => nonempty (List.isEmpty_iff.1 none), bind_apply, internList_of_list list]
  exact intern_of_node node

theorem literalUnion_of_nodes (joined : Joined.union (flattenUnions σ handles) = .several ms)
    (list : σ.lists.get? l.number = some ms) (node : σ.node? h = some (.union l)) :
    literalUnion values σ = (h, σ) := by
  unfold literalUnion
  rw [bind_apply, mapM_literal_of_nodes literals]
  exact union_of_pieces joined list node

end

end Store

end Assignability
