/-
  Assignability.Proofs.Store.Listing
  ──────────────────────────────────
  **STORES WRITTEN DOWN.**

  A listing says entry by entry what a store holds beside the built-in
  types.  No entry stands in it twice, so each becomes an entry of the
  store under its place in the list, and a handle can be written down as
  well: the built-in types have the numbers up to twelve, and the nodes of
  the listing those from thirteen on.
-/
import Assignability.Store.Resolve

namespace Assignability

/-- Entries of a store in the order of their numbers. -/
structure Listing (ρ : Type) where
  /-- The descriptors after the built-in types. -/
  nodes : List Node
  lists : List (List Handle) := []
  objects : List Layout := []
  definitions : List (Definition ρ) := []
  /-- No entry stands in its list twice. -/
  distinct : ((Intrinsic.all.map Node.intrinsic ++ nodes).map Node.key).Nodup ∧
    (lists.map id).Nodup ∧ (objects.map id).Nodup := by decide

/-- The store that holds what is listed. -/
def Listing.store {ρ : Type} (l : Listing ρ) : Store ρ where
  nodes := Table.ofList (Intrinsic.all.map .intrinsic ++ l.nodes) l.distinct.1
  lists := Store.memberLists l.lists l.distinct.2.1
  objects := Table.ofList l.objects l.distinct.2.2
  tuples := Table.empty
  functions := Table.empty
  strings := Pool.empty fun text => Pool.shardOf ⟨text.length⟩
  definitions := ⟨l.definitions.toArray⟩
  get?_toNumber := by
    intro k
    rw [Table.get?_ofList]
    cases k <;> rfl

end Assignability
