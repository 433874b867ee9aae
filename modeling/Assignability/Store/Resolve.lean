/-
  Assignability.Store.Resolve
  ───────────────────────────
  **RESOLVING LAZY NODES.**

  A resolver says what a lazy node stands for when that is first asked.
  It may build; what it gives is put on record, and is the answer from
  then on.  A resolver may give another lazy node: the chain is followed
  until it leaves the lazy nodes.  A chain that comes back to a definition
  or is longer than sixty-four steps leads nowhere, and so does a
  definition without a resolver.

  How a resolver of type `ρ` is carried out is a parameter, `run`.
-/
import Assignability.Store.Build

namespace Assignability

/-- How resolvers are carried out. -/
abbrev Runner (ρ : Type) := ρ → Build ρ Handle

namespace Store

variable {ρ : Type} (run : Runner ρ)

/-- The longest chain of lazy nodes that is followed. -/
def longestChain : Nat := 64

/-- What a definition stands for, which may be a lazy node again.  The resolver is carried out
where nothing is on record; what went on record first is the answer. -/
def force (d : LazyId) : Build ρ (Option Handle) := do
  match (← get).definitions.get? d with
  | none => pure none
  | some definition =>
    match definition.resolution, definition.resolver with
    | some h, _ => pure (some h)
    | none, none => pure none
    | none, some resolver =>
      let h ← run resolver
      -- the resolver may have led back here, and then its first answer counts
      recordResolution d h
      pure ((← get).definitions.resolution? d)

/-- Follows a chain from `d` for a number of steps; `visited` are the definitions before `d`. -/
def follow : Nat → List LazyId → LazyId → Build ρ (Option Handle)
  | 0, _, _ => pure none
  | steps + 1, visited, d =>
    if d ∈ visited then pure none
    else do
      match ← force run d with
      | none => pure none
      | some h =>
        match (← get).lazyId? h with
        | some next => follow steps (d :: visited) next
        | none => pure (some h)

/-- The handle that is no lazy node to which a definition leads. -/
def destination? (d : LazyId) : Build ρ (Option Handle) := follow run longestChain [] d

/-- A handle that stands for itself unless it is that of a lazy node; a lazy node that leads
nowhere is empty. -/
def resolve (h : Handle) : Build ρ Handle := do
  match (← get).lazyId? h with
  | some d => return (← destination? run d).getD .never
  | none => pure h

end Store

end Assignability
