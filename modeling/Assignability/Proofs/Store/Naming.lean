/-
  Assignability.Proofs.Store.Naming
  ─────────────────────────────────
  **A TEXT HAS ONE NAME.**

  A pool puts a text into the shard that it belongs to, and a shard keeps
  each text once.  So no two names resolve to one text, whatever is done
  with a store (`spellsOnce_of_evolves`).  The empty text is the exception
  that belongs to the first shard, wherever its shard would be.
-/
import Assignability.Proofs.Store.Interning
import Assignability.Proofs.Store.Joined

namespace Assignability

variable {ρ : Type}

/-! ## §1. Pools -/

namespace Pool

variable {p : Pool} {a b : Atom} {text : String}

/-- The shard that a text belongs to. -/
def shardFor (p : Pool) (text : String) : Fin 64 := if text = "" then 0 else p.assign text

/-- Every text is in the shard that it belongs to. -/
def InPlace (p : Pool) : Prop :=
  ∀ i place text, (p.shard i).get? place = some text → i = p.shardFor text

/-- One name resolves to a text. -/
theorem InPlace.unique (inPlace : p.InPlace) (ha : p.resolve? a = some text)
    (hb : p.resolve? b = some text) : a = b := by
  have shard : shardOf a = shardOf b :=
    (inPlace _ _ _ ha).trans (inPlace _ _ _ hb).symm
  unfold resolve? at ha hb
  rw [← shard] at hb
  have place := Table.get?_injective ha hb rfl
  rw [← atomOf_shardOf_placeOf a, ← atomOf_shardOf_placeOf b, shard, place]

theorem inPlace_empty (assign : String → Fin 64) : (empty assign).InPlace := by
  intro i place text h
  unfold shard empty at h
  rw [Fin.getElem_fin, Vector.getElem_set] at h
  split at h
  · next first =>
    -- the empty text alone is in the first shard
    rcases Table.get?_of_intern h with h | rfl
    · cases h
    · exact Fin.ext first.symm
  · rw [Vector.getElem_replicate] at h
    cases h

/-- A text that is interned is put into the shard that it belongs to. -/
theorem InPlace.intern (inPlace : p.InPlace) (text : String) : (p.intern text).2.InPlace := by
  unfold Pool.intern
  split
  · exact inPlace
  · next nonempty =>
    dsimp only
    split
    · exact inPlace
    · split
      · exact inPlace
      · intro i place t h
        unfold shard at h
        dsimp only at h
        rw [Fin.getElem_fin, Vector.getElem_set] at h
        split at h
        -- a new string is put into the shard it is assigned to
        · next same =>
          obtain rfl : p.assign text = i := Fin.ext same
          rcases Table.get?_of_intern h with h | rfl
          · exact inPlace _ _ _ h
          · exact (if_neg nonempty).symm
        · exact inPlace _ _ _ h

theorem InPlace.internAll (inPlace : p.InPlace) (texts : List String) :
    (p.internAll texts).InPlace := by
  induction texts generalizing p with
  | nil => exact inPlace
  | cons text texts ih => exact ih (inPlace.intern text)

theorem entries_first : (Table.empty.intern "" : Nat × Shard).2.entries = #[""] :=
  Table.entries_intern_of_new nofun

/-- The empty text is there from the start, and stays. -/
theorem resolve?_none (assign : String → Fin 64) (texts : List String) :
    ((empty assign).internAll texts).resolve? .none = some "" := by
  have first : (empty assign).resolve? .none = some "" := by
    unfold resolve? shard empty
    show (((Vector.replicate 64 Table.empty).set 0
      (Table.empty.intern "" : Nat × Shard).2)[0]).get? 0 = some ""
    rw [Vector.getElem_set_self]
    unfold Table.get?
    rw [entries_first]
    rfl
  generalize empty assign = p at first
  induction texts generalizing p with
  | nil => exact first
  | cons text texts ih => exact ih _ (resolve?_intern first)

/-- A shard has one text more at most. -/
theorem size_intern_le (p : Pool) (text : String) (i : Fin 64) :
    ((p.intern text).2.shard i).size ≤ (p.shard i).size + 1 := by
  unfold Pool.intern
  split
  · exact Nat.le_succ _
  · dsimp only
    split
    · exact Nat.le_succ _
    · split
      · exact Nat.le_succ _
      · unfold shard
        dsimp only
        rw [Fin.getElem_fin, Vector.getElem_set]
        split
        · next same =>
          obtain rfl : p.assign text = i := Fin.ext same
          unfold Table.intern Table.size
          split
          · exact Nat.le_succ _
          · exact Nat.le_of_eq (Array.size_push _)
        · exact Nat.le_succ _

theorem size_internAll_le (texts : List String) : ∀ (p : Pool) (i : Fin 64),
    ((p.internAll texts).shard i).size ≤ (p.shard i).size + texts.length := by
  induction texts with
  | nil => exact fun _ _ => Nat.le_refl _
  | cons text texts ih =>
    intro p i
    calc ((p.internAll (text :: texts)).shard i).size
        ≤ ((p.intern text).2.shard i).size + texts.length := ih _ i
      _ ≤ (p.shard i).size + 1 + texts.length :=
          Nat.add_le_add_right (p.size_intern_le text i) _
      _ = (p.shard i).size + (text :: texts).length := by rw [List.length_cons]; omega

/-- A shard has no more texts than were interned, and the empty one. -/
theorem size_shard_le (assign : String → Fin 64) (texts : List String) (i : Fin 64) :
    (((empty assign).internAll texts).shard i).size ≤ 1 + texts.length := by
  have first : ((empty assign).shard i).size ≤ 1 := by
    unfold shard empty
    rw [Fin.getElem_fin, Vector.getElem_set]
    split
    · unfold Table.size
      rw [entries_first]
      exact Nat.le_refl 1
    · rw [Vector.getElem_replicate]
      exact Nat.zero_le 1
  exact Nat.le_trans (size_internAll_le texts _ i) (Nat.add_le_add_right first _)

end Pool

/-! ## §2. Stores -/

namespace Store

variable {σ τ : Store ρ} {a : Atom} {text : String}

/-- A name of a text. -/
def Names (σ : Store ρ) (a : Atom) (text : String) : Prop := σ.strings.resolve? a = some text

theorem Names.text_eq (names : σ.Names a text) : σ.text a = text := by
  unfold Names at names
  unfold Store.text Pool.resolve
  rw [names]
  rfl

theorem Names.grows (names : σ.Names a text) (grows : σ.Grows τ) : τ.Names a text :=
  grows.strings a text names

/-- No two names have one text. -/
def SpellsOnce (σ : Store ρ) : Prop := ∀ {a b text}, σ.Names a text → σ.Names b text → a = b

theorem strings_mapM_literal (values : List Literal) (σ : Store ρ) :
    (values.mapM literal σ).2.strings = σ.strings :=
  mapM_invariant (I := fun τ => τ.strings = σ.strings) (fun _ _ same => same) values σ rfl

/-- A call interns one text at most. -/
theorem strings_call (c : Call ρ) (σ : Store ρ) : (c.carryOut σ).strings = σ.strings ∨
    ∃ text, (c.carryOut σ).strings = (σ.strings.intern text).2 := by
  -- only two calls spell a text: that for a text, and that for a brand
  cases c with
  | text text => exact .inr ⟨text, rfl⟩
  | branded base brand => exact .inr ⟨brand, rfl⟩
  | enumeration values =>
    left
    show (Store.enumeration values σ).2.strings = σ.strings
    unfold Store.enumeration
    rw [bind_apply]
    split <;> exact strings_mapM_literal values σ
  | union members =>
    left
    show (Store.union members σ).2.strings = σ.strings
    rw [union_eq_build]
    cases Joined.union (members.flatMap (σ.piecesOf .union)) <;> rfl
  | intersection members =>
    left
    show (Store.intersection members σ).2.strings = σ.strings
    rw [intersection_eq_build]
    cases Joined.intersection (members.flatMap (σ.piecesOf .intersection)) <;> rfl
  | define h resolver =>
    left
    show (Store.define h resolver σ).2.strings = σ.strings
    unfold Store.define
    rw [bind_apply, get_apply]
    dsimp only
    cases σ.lazyId? h <;> rfl
  | _ => exact .inl rfl

theorem inPlace_of_evolves (inPlace : σ.strings.InPlace) (evolves : σ.Evolves τ) :
    τ.strings.InPlace := by
  induction evolves with
  | refl => exact inPlace
  | @call υ c _ ih =>
    rcases strings_call c υ with same | ⟨text, interned⟩
    · rw [same]
      exact ih
    · rw [interned]
      exact ih.intern text
  | intern _ _ ih | addDefinition _ ih | attachResolver _ _ _ ih | recordResolution _ _ _ ih =>
    exact ih

theorem strings_new (assign : String → Fin 64) : (Store.new assign : Store ρ).strings
    = (Pool.empty assign).internAll Pool.commonNames := by
  -- by the definition of `Store.new` alone, without carrying the interning out
  delta Store.new
  with_reducible rfl

/-- **A TEXT HAS ONE NAME**, whatever was done with the store. -/
theorem spellsOnce_of_evolves {assign : String → Fin 64} (evolves : (Store.new assign).Evolves σ) :
    σ.SpellsOnce := by
  have start := (Pool.inPlace_empty assign).internAll Pool.commonNames
  rw [← strings_new] at start
  have final := inPlace_of_evolves start evolves
  intro a b text ha hb
  exact final.unique ha hb

end Store

end Assignability
