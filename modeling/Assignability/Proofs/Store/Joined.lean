/-
  Assignability.Proofs.Store.Joined
  ─────────────────────────────────
  **WHAT IS LEFT OF THE MEMBERS.**

  The constructors of unions and intersections take their members apart
  once, put them in order and leave out the ends.  What is left
  (`Joined.toList`) need not be what was given, but it comes to the same
  for every property that holds of the ends as it should
  (`Joined.forall_union`, `Joined.forall_intersection`).

  The unchecked type takes the place of the whole, so these statements are
  about members without it.
-/
import Assignability.Proofs.Store.Normal

namespace Assignability

variable {ρ : Type}

/-! ## §1. Nodes with members -/

/-- Whether a node is that of a union, an enumeration or an intersection. -/
def Node.isJoint : Node → Bool
  | .enumeration _ | .union _ | .intersection _ => true
  | _ => false

theorem Node.isJoint_of_alternatives? {σ : Store ρ} {n : Node} {members : List Handle}
    (ha : σ.alternatives? n = some members) : n.isJoint = true := by
  cases n <;> first | rfl | cases ha

namespace Store

variable {σ : Store ρ}

/-- The unchecked type is no member of a union, an enumeration or an intersection. -/
def JointsChecked (σ : Store ρ) : Prop :=
  ∀ h n, σ.node? h = some n → n.isJoint = true → .any ∉ σ.components n

/-- Unions, enumerations and intersections have members. -/
def JointsPopulated (σ : Store ρ) : Prop :=
  ∀ h n, σ.node? h = some n → n.isJoint = true → σ.components n ≠ []

/-- No constructor keeps the unchecked type among others. -/
theorem WellBuilt.jointsChecked (built : σ.WellBuilt) : σ.JointsChecked := by
  intro h n hn joint hm
  have normal := built.normal h n hn
  cases n with
  | enumeration l =>
    -- an enumeration lists literals
    have literal := (isOfKind_of_node (σ.node?_handle .any)).1 (normal.2 _ hm)
    cases literal
  | union l | intersection l => exact normal.inner _ hm (by decide)
  | _ => cases joint

/-- No constructor joins nothing. -/
theorem WellBuilt.jointsPopulated (built : σ.WellBuilt) : σ.JointsPopulated := by
  intro h n hn joint
  have normal := built.normal h n hn
  cases n with
  | enumeration l => exact normal.1
  | union l | intersection l =>
    exact List.ne_nil_of_length_pos (Nat.lt_of_lt_of_le Nat.two_pos normal.several)
  | _ => cases joint

/-- Whether the members of all unions, enumerations and intersections are such. -/
def allJoints (σ : Store ρ) (p : List Handle → Bool) : Bool :=
  σ.allHandles fun h => (σ.node? h).all fun n => !n.isJoint || p (σ.components n)

theorem of_allJoints {p : List Handle → Bool} (all : σ.allJoints p = true) (h : Handle) (n : Node)
    (hn : σ.node? h = some n) (joint : n.isJoint = true) : p (σ.components n) = true := by
  have each := of_allHandles all ⟨n, hn⟩
  rw [hn] at each
  simpa [joint] using each

theorem JointsChecked.of_allJoints
    (all : (σ.allJoints fun members => !members.contains .any) = true) : σ.JointsChecked := by
  intro h n hn joint
  simpa using Store.of_allJoints all h n hn joint

theorem JointsPopulated.of_allJoints (all : (σ.allJoints fun members => !members.isEmpty) = true) :
    σ.JointsPopulated := by
  intro h n hn joint
  simpa using Store.of_allJoints all h n hn joint

end Store

/-! ## §2. Members that are left -/

namespace Joined

variable {members : List Handle} {p : Handle → Prop}

/-- The members that are left. -/
def toList : Joined → List Handle
  | .single h => [h]
  | .several members => members

/-- The descriptor of what is left. -/
def build (constructor : ListId → Node) : Joined → Build ρ Handle
  | .single h => pure h
  | .several members => do Store.intern (constructor (← Store.internList members))

theorem toList_ofMembers (h : members ≠ []) : (ofMembers members).toList = members := by
  match members, h with
  | [_], _ => rfl
  | _ :: _ :: _, _ => rfl

end Joined

/-! ## §3. What is built of them -/

namespace Store

variable {σ τ : Store ρ} {members : List Handle} {k : Kind} {h : Handle}

theorem union_eq_build (members : List Handle) (σ : Store ρ) :
    union members σ = (Joined.union (members.flatMap (σ.piecesOf .union))).build .union σ := by
  unfold union
  rw [bind_apply, get_apply, flattenUnions_eq]
  cases Joined.union (members.flatMap (σ.piecesOf .union)) <;> rfl

theorem intersection_eq_build (members : List Handle) (σ : Store ρ) :
    intersection members σ
      = (Joined.intersection (members.flatMap (σ.piecesOf .intersection))).build .intersection σ := by
  unfold intersection
  rw [bind_apply, get_apply, flattenIntersections_eq]
  cases Joined.intersection (members.flatMap (σ.piecesOf .intersection)) <;> rfl

/-- Several members are those of a node. -/
theorem build_several {constructor : ListId → Node} (hk : ∀ l, (constructor l).kind ≠ .literal)
    (ms : List Handle) (grows : ((Joined.several ms).build constructor σ).2.Grows τ) :
    ∃ l, τ.node? ((Joined.several ms).build constructor σ).1 = some (constructor l) ∧
      τ.list l = ms := by
  have node := node?_intern (hk (internList ms σ).1) (internList ms σ).2
  have list := (grows_intern (constructor (internList ms σ).1) _).lists _ _ (list_internList ms σ)
  refine ⟨_, grows.node? node, ?_⟩
  unfold Store.list
  rw [grows.lists _ _ list]
  rfl

/-- One descriptor that is left stands for itself, and several are the members of a node. -/
theorem build_cases {constructor : ListId → Node} (hk : ∀ l, (constructor l).kind ≠ .literal)
    (joined : Joined) (grows : (joined.build constructor σ).2.Grows τ) :
    joined.toList = [(joined.build constructor σ).1] ∨
      ∃ l, τ.node? (joined.build constructor σ).1 = some (constructor l) ∧
        τ.list l = joined.toList := by
  cases joined with
  | single h => exact .inl rfl
  | several ms => exact .inr (build_several hk ms grows)

/-- A member is taken apart once where it is of the constructor, now as later. -/
theorem piecesOf_cases (whole : σ.IsWhole) (grows : σ.Grows τ) (hh : σ.Has h) :
    ∃ n, τ.node? h = some n ∧
      (n.kind = k ∧ σ.piecesOf k h = τ.components n ∨ n.kind ≠ k ∧ σ.piecesOf k h = [h]) := by
  obtain ⟨n, hn⟩ := hh
  refine ⟨n, grows.node? hn, ?_⟩
  rw [piecesOf_of_node hn, grows.components (whole.keeps h n hn)]
  by_cases same : n.kind = k
  · rw [if_pos same]
    exact .inl ⟨same, rfl⟩
  · rw [if_neg same]
    exact .inr ⟨same, rfl⟩

theorem has_pieces (whole : σ.IsWhole) (grows : σ.Grows τ) (has : ∀ m ∈ members, σ.Has m) :
    ∀ m ∈ members.flatMap (σ.piecesOf k), τ.Has m := by
  intro m hm
  obtain ⟨a, ha, piece⟩ := List.mem_flatMap.1 hm
  apply grows.has
  unfold piecesOf at piece
  split at piece
  · exact whole.parts a m piece
  · exact List.mem_singleton.1 piece ▸ has a ha

section

variable (whole : σ.IsWhole) (grows : σ.Grows τ) (hk : k = .union ∨ k = .intersection)
  (has : ∀ m ∈ members, σ.Has m)
include whole grows hk has

theorem pieces_ne_nil (joints : τ.JointsPopulated) (nonempty : members ≠ []) :
    members.flatMap (σ.piecesOf k) ≠ [] := by
  obtain ⟨a, ha⟩ := List.exists_mem_of_ne_nil _ nonempty
  have some : σ.piecesOf k a ≠ [] := by
    obtain ⟨n, hn, ⟨same, pieces⟩ | ⟨-, pieces⟩⟩ :=
      piecesOf_cases (k := k) whole grows (has a ha)
    · rw [pieces]
      refine joints a n hn ?_
      cases n <;> first | rfl | (rcases hk with rfl | rfl <;> cases same)
    · rw [pieces]
      exact List.cons_ne_nil a []
  obtain ⟨m, hm⟩ := List.exists_mem_of_ne_nil _ some
  exact List.ne_nil_of_mem (List.mem_flatMap.2 ⟨a, ha, hm⟩)

end

end Store

end Assignability
