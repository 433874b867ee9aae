/-
  Assignability.Proofs.Checker.Equivalence
  ────────────────────────────────────────
  **EQUIVALENCE IS ASSIGNABILITY BOTH WAYS.**

  The question whether two types are equivalent is put to one checker in
  both directions, and what it kept of the first goes into the second.
  Two questions about assignability have a checker each.  The store may
  grow with every question, but each can be repeated later on, where
  nothing is carried out any more (`Found.again`).  There all verdicts
  that are kept are right as long as no key type is recursive, so both
  ways of asking come to the same.
-/
import Assignability.Proofs.Checker.Finding
import Assignability.Proofs.Checker.Replay

namespace Assignability

variable {ρ : Type} {run : Runner ρ} {policy : Policy} {kind : Question} {σ ω : Store ρ}
  {s t h g : Handle} {d : LazyId} {f : Finding}

namespace Store

/-! ## §1. Stores without resolvers -/

/-- The definitions as far as they were resolved, without their resolvers. -/
def closed (σ : Store ρ) : Store ρ :=
  { σ with
    definitions := ⟨σ.definitions.entries.map fun definition =>
      { definition with resolver := none }⟩ }

/-- Closing a store keeps its definitions and takes their resolvers away. -/
theorem get?_closed (σ : Store ρ) (d : LazyId) :
    σ.closed.definitions.get? d
      = (σ.definitions.get? d).map fun definition => { definition with resolver := none } := by
  show (Definitions.place? d).bind _ = ((Definitions.place? d).bind _).map _
  cases Definitions.place? d with
  | none => rfl
  | some i => exact Array.getElem?_map

/-- What was resolved stays resolved when the resolvers are taken away. -/
theorem resolution?_closed (σ : Store ρ) (d : LazyId) :
    σ.closed.definitions.resolution? d = σ.definitions.resolution? d := by
  unfold Definitions.resolution?
  rw [get?_closed]
  cases σ.definitions.get? d <;> rfl

/-- And then nothing is left to be resolved. -/
theorem isSettled_closed (σ : Store ρ) (d : LazyId) : σ.closed.IsSettled d := by
  right
  unfold Definitions.isDefined
  rw [get?_closed]
  cases σ.definitions.get? d <;> rfl

/-- What can be resolved no more is a later state. -/
theorem extends_closed (σ : Store ρ) : σ.Extends σ.closed where
  nodes := fun _ _ h => h
  lists := fun _ _ h => h
  objects := fun _ _ h => h
  tuples := fun _ _ h => h
  functions := fun _ _ h => h
  strings := fun _ _ h => h
  resolutions := fun d h hd => by rw [resolution?_closed, hd]
  declared := by
    intro d hd
    unfold Definitions.contains at hd ⊢
    rw [get?_closed, Option.isSome_map]
    exact hd
  undefined := by
    intro d hd
    rw [get?_closed, hd]
    rfl

/-- A whole store stays whole. -/
theorem IsWhole.closed (whole : σ.IsWhole) : σ.closed.IsWhole where
  keeps := whole.keeps
  parts := whole.parts
  names := whole.names
  lazies := fun h d hd => (extends_closed σ).declared d (whole.lazies h d hd)
  resolutions := fun d h hd => whole.resolutions d h (resolution?_closed σ d ▸ hd)

/-- A handle leads where it led before. -/
theorem leads_closed (σ : Store ρ) : σ.closed.Leads = σ.Leads := by
  funext h g
  refine propext ⟨fun hg => ?_, fun hg => ?_⟩
  · cases hg with
    | part hg => exact .part hg
    | recorded hd hr => exact .recorded hd (by rw [← resolution?_closed, hr])
  · cases hg with
    | part hg => exact .part hg
    | recorded hd hr => exact .recorded hd (by rw [resolution?_closed, hr])

/-- So what has no recursive key type is at rest. -/
theorem quiescent_closed (keys : σ.KeysFinite h) : σ.closed.Quiescent h where
  settled := fun _ d _ _ => isSettled_closed σ d
  keys := by
    intro g k hg hk
    unfold Reaches at hg
    rw [leads_closed] at hg
    obtain ⟨n, hn⟩ := keys g k hg hk
    exact ⟨n, by rw [leads_closed]; exact hn⟩

/-- Closing a store leaves the components of a node alone. -/
theorem components_closed (σ : Store ρ) (n : Node) : σ.closed.components n = σ.components n := by
  cases n <;> rfl

/-- And what a handle is made of is the same. -/
theorem madeWithin_closed (σ : Store ρ) (p : Node → Bool) (n : Nat) (h : Handle) :
    σ.closed.madeWithin p n h = σ.madeWithin p n h := by
  induction n generalizing h with
  | zero => rfl
  | succ n ih =>
    rw [Bool.eq_iff_iff, madeWithin_succ, madeWithin_succ]
    simp only [components_closed, ih]
    exact Iff.rfl

/-! ## §2. What was found before -/

/-- What a question about a pair came to, at some time before the store was what it is.  The store was
orderly then: no resolver in it defines what was declared before, and all that it speaks of is there. -/
def Found (run : Runner ρ) (policy : Policy) (kind : Question) (ω : Store ρ) (s t : Handle)
    (f : Finding) : Prop :=
  ∃ σ, Orderly run σ ∧ σ.Has s ∧ σ.Has t ∧ (relate run policy kind s t σ).1 = f ∧
    (relate run policy kind s t σ).2.Extends ω

/-- It comes to the same again when nothing more is resolved. -/
theorem Found.again (found : Found run policy kind ω s t f) :
    (relate run policy kind s t ω.closed).1 = f := by
  obtain ⟨σ, ho, hs, ht, hf, later⟩ := found
  rw [(repeated_relate ho hs ht).again ω.closed (later.trans (extends_closed ω)), hf]

/-- And it is right, unless a limit was hit. -/
theorem Found.related_iff (found : Found run policy kind ω s t f) (hs : ω.KeysFinite s)
    (ht : ω.KeysFinite t) (within : f.exceeded = false) :
    f.related = true ↔ (View.of run ω.closed policy.flags).Relates kind s t := by
  have again := found.again
  rw [← again] at within ⊢
  exact relate_iff_of_quiescent (quiescent_closed hs) (quiescent_closed ht) within

/-- A question about a pair that poses none about keys is decided right, whatever key types there are
among its parts. -/
theorem Found.fits_iff (found : Found run policy .assignable ω s t f)
    (noKeys : ∀ a b, ¬ (View.of run ω.closed policy.flags).PosesKeys s t a b)
    (within : f.exceeded = false) :
    f.related = true ↔ (View.of run ω.closed policy.flags).Fits s t := by
  have tame : (View.of run ω.closed policy.flags).PairTame run s t := by
    refine ⟨fun g _ => ?_, fun a b hk => absurd hk (noKeys a b)⟩
    obtain ⟨x, hx, -⟩ := resolve_of_settled (h := g) run fun _ d _ _ => isSettled_closed ω d
    have fixed : (resolve run g ω.closed).2 = ω.closed := congrArg Prod.snd hx
    exact Prod.ext rfl fixed
  have again := found.again
  rw [← again] at within ⊢
  exact relate_iff_of_pairTame tame within

end Store

/-! ## §3. Equivalence -/

/-- **EQUIVALENCE IS ASSIGNABILITY BOTH WAYS**, and so it is symmetric.  The questions may be asked
in any order, and resolvers carried out on the way; no key type turned out to be recursive, and no
limit was hit. -/
theorem identical_iff_assignable (run : Runner ρ) (policy : Policy) (ω : Store ρ) (a b : Handle)
    (ha : ω.KeysFinite a) (hb : ω.KeysFinite b) (both forth back : Finding)
    (identical : Store.Found run policy .identical ω a b both)
    (assignable : Store.Found run policy .assignable ω a b forth)
    (assignable' : Store.Found run policy .assignable ω b a back)
    (within : both.exceeded = false ∧ forth.exceeded = false ∧ back.exceeded = false) :
    (both.related = true ↔ forth.related = true ∧ back.related = true) ∧
      ∀ swapped, Store.Found run policy .identical ω b a swapped →
        swapped.exceeded = false → (swapped.related = true ↔ both.related = true) := by
  obtain ⟨within, within', within''⟩ := within
  -- all four findings speak of one relation, that of the closed store
  have hboth := identical.related_iff ha hb within
  have hforth := assignable.related_iff ha hb within'
  have hback := assignable'.related_iff hb ha within''
  constructor
  · rw [hboth, hforth, hback]
    constructor
    · rintro ⟨hab, hba⟩
      exact ⟨⟨hab, nofun⟩, hba rfl, nofun⟩
    · rintro ⟨⟨hab, -⟩, hba, -⟩
      exact ⟨hab, fun _ => hba⟩
  · intro swapped found hs
    rw [found.related_iff hb ha hs, hboth]
    exact ⟨fun ⟨hba, hab⟩ => ⟨hab rfl, fun _ => hba⟩, fun ⟨hab, hba⟩ => ⟨hba rfl, fun _ => hab⟩⟩

/-- Two lazy nodes for the lists of themselves, which were not resolved yet. -/
def unresolvedLists : Listing Handle :=
  { listsOfThemselves with definitions := [⟨some ⟨14⟩, none⟩, ⟨some ⟨16⟩, none⟩] }

/-- The lists are equivalent when they have been compared one way and the other way; the first
comparison resolves them. -/
theorem identical_unresolvedLists :
    (Store.relate pure {} .identical ⟨13⟩ ⟨15⟩
      (Store.relate pure {} .assignable ⟨15⟩ ⟨13⟩
        (Store.relate pure {} .assignable ⟨13⟩ ⟨15⟩ unresolvedLists.store).2).2).1.related
      = true := by
  let compared : Question → Handle → Handle → Store Handle → Finding × Store Handle :=
    Store.relate pure {}
  let one := compared .assignable ⟨13⟩ ⟨15⟩ unresolvedLists.store
  let other := compared .assignable ⟨15⟩ ⟨13⟩ one.2
  let both := compared .identical ⟨13⟩ ⟨15⟩ other.2
  have orderly : Store.Orderly pure unresolvedLists.store :=
    unresolvedLists.orderly (by decide +kernel)
  have hs : unresolvedLists.store.Has ⟨13⟩ := ⟨.lazy ⟨1⟩, by decide +kernel⟩
  have ht : unresolvedLists.store.Has ⟨15⟩ := ⟨.lazy ⟨2⟩, by decide +kernel⟩
  -- each question leads to an orderly later store
  have first : Store.Repeats pure _ (compared .assignable ⟨13⟩ ⟨15⟩) _ :=
    repeated_relate orderly hs ht
  have hs' := first.later.has hs
  have ht' := first.later.has ht
  have second : Store.Repeats pure _ (compared .assignable ⟨15⟩ ⟨13⟩) _ :=
    repeated_relate first.orderly ht' hs'
  have hs'' := second.later.has hs'
  have ht'' := second.later.has ht'
  have third : Store.Repeats pure _ (compared .identical ⟨13⟩ ⟨15⟩) _ :=
    repeated_relate second.orderly hs'' ht''
  have rests : both.2.restsWithin [⟨13⟩, ⟨14⟩, ⟨15⟩, ⟨16⟩] = true := by
    simp only [both, other, one, compared, relate_snd_eq]
    decide +kernel
  have keys : ∀ h ∈ [(⟨13⟩ : Handle), ⟨14⟩, ⟨15⟩, ⟨16⟩], both.2.KeysFinite h :=
    fun h hh => (Store.AtRest.of_restsWithin rests hh).quiescent.keys
  have within : both.1.exceeded = false ∧ one.1.exceeded = false ∧ other.1.exceeded = false := by
    simp only [both, other, one, compared, relate_snd_eq, relate_eq_finding]
    decide +kernel
  have related : one.1.related = true ∧ other.1.related = true := by
    simp only [other, one, compared, relate_snd_eq, relate_eq_finding]
    decide +kernel
  refine (identical_iff_assignable pure {} both.2 ⟨13⟩ ⟨15⟩ (keys _ (by decide))
    (keys _ (by decide)) both.1 one.1 other.1 ?_ ?_ ?_ within).1.2 related
  · exact ⟨_, second.orderly, hs'', ht'', rfl, .refl _⟩
  · exact ⟨_, orderly, hs, ht, rfl, second.later.trans third.later⟩
  · exact ⟨_, first.orderly, ht', hs', rfl, third.later⟩

end Assignability
