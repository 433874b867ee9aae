/-
  Assignability.Store.Members
  ───────────────────────────
  **MEMBER LISTS IN NORMAL FORM.**

  The members of a union or an intersection stand in handle order, each
  once.  The built-in types at the two ends are absorbed: a union with a
  member that has all values has all values, and one without members has
  none; an intersection with an empty member is empty, and all values are
  a member only where there is no other.
-/
import Assignability.Descriptor.Intrinsic

namespace Assignability

/-! ## §1. Handle sets as lists -/

namespace Members

/-- Puts a handle among handles in ascending order, unless it is there. -/
def place (h : Handle) : List Handle → List Handle
  | [] => [h]
  | g :: rest =>
    if h < g then h :: g :: rest
    else if h = g then g :: rest
    else g :: place h rest

/-- The handles of a list in ascending order, each once. -/
def sort (members : List Handle) : List Handle := members.foldr place []

/-- Placing a handle adds it and nothing else. -/
theorem mem_place {h g : Handle} {members : List Handle} :
    g ∈ place h members ↔ g = h ∨ g ∈ members := by
  -- on the list, along the three cases of placing
  induction members with
  | nil => simp [place]
  | cons a rest ih =>
    unfold place
    split
    · simp
    · split
      · next h' => subst h'; simp
      · simp only [List.mem_cons, ih]
        constructor
        · rintro (h' | h' | h')
          · exact Or.inr (Or.inl h')
          · exact Or.inl h'
          · exact Or.inr (Or.inr h')
        · rintro (h' | h' | h')
          · exact Or.inr (Or.inl h')
          · exact Or.inl h'
          · exact Or.inr (Or.inr h')

/-- Sorting neither adds nor loses a handle. -/
theorem mem_sort {h : Handle} {members : List Handle} : h ∈ sort members ↔ h ∈ members := by
  induction members with
  | nil => simp [sort]
  | cons a rest ih =>
    show h ∈ place a (sort rest) ↔ _
    rw [mem_place, ih, List.mem_cons]

/-- A handle is placed so that the members stay in order. -/
theorem pairwise_place {h : Handle} {members : List Handle} (sorted : members.Pairwise (· < ·)) :
    (place h members).Pairwise (· < ·) := by
  -- on the members: before the first greater one, not at all beside an equal one, or further down
  induction members with
  | nil => simp [place]
  | cons a rest ih =>
    have tail := (List.pairwise_cons.1 sorted).2
    have head := (List.pairwise_cons.1 sorted).1
    unfold place
    split
    · next lt =>
      refine List.pairwise_cons.2 ⟨?_, sorted⟩
      intro b hb
      rcases List.mem_cons.1 hb with rfl | hb
      · exact lt
      · exact Nat.lt_trans (Handle.lt_iff.1 lt) (Handle.lt_iff.1 (head b hb))
    · next not_lt =>
      split
      · exact sorted
      · next ne =>
        refine List.pairwise_cons.2 ⟨?_, ih tail⟩
        intro b hb
        rcases mem_place.1 hb with rfl | hb
        · have h1 : ¬ b.number < a.number := fun h => not_lt (Handle.lt_iff.2 h)
          have h2 : b.number ≠ a.number := fun h => ne (by cases a; cases b; cases h; rfl)
          exact Handle.lt_iff.2 (by omega)
        · exact head b hb

/-- Sorted members stand in strictly ascending order. -/
theorem pairwise_sort (members : List Handle) : (sort members).Pairwise (· < ·) := by
  induction members with
  | nil => exact List.Pairwise.nil
  | cons a rest ih => exact pairwise_place ih

end Members

/-! ## §2. What the members of a union or an intersection come to -/

/-- What is left of a list of members. -/
inductive Joined where
  /-- The whole is one descriptor. -/
  | single (handle : Handle)
  /-- At least two members are left. -/
  | several (members : List Handle)
  deriving DecidableEq, Repr

namespace Joined

/-- Members in order, none of them a built-in end. -/
def ofMembers : List Handle → Joined
  | [] => single .never
  | [h] => single h
  | members => several members

/-- The union of members that are no unions themselves. -/
def union (members : List Handle) : Joined :=
  let members := Members.sort members
  if Handle.any ∈ members then single .any
  else if Handle.unknown ∈ members then single .unknown
  else ofMembers (members.filter (· ≠ .never))

/-- The intersection of members that are no intersections themselves. -/
def intersection (members : List Handle) : Joined :=
  let members := Members.sort members
  if Handle.any ∈ members then single .any
  else if Handle.never ∈ members then single .never
  else if members.length ≤ 1 then ofMembers members
  else ofMembers (members.filter (· ≠ .unknown))

end Joined

end Assignability
