/-
  Assignability.Table
  ───────────────────
  **TABLES THAT KEEP EACH ENTRY ONCE.**

  A table numbers its entries from zero in the order in which they come.
  Entries with one key are one entry: the first to come is kept.  The
  index from keys to numbers agrees with the list of entries by a field of
  the type, so no two entries of a table share a key.

  Main statements: interning gives the number of an entry with the key
  asked for (`exists_get?_intern_fst`), and changes no entry already there
  (`get?_intern`).
-/
import Std.Data.HashMap

namespace Assignability

/-- Entries in the order of their numbers, at most one for each key. -/
structure Table {α κ : Type} [BEq κ] [LawfulBEq κ] [Hashable κ] (key : α → κ) where
  entries : Array α
  index : Std.HashMap κ Nat
  index_eq_some_iff : ∀ k i, index[k]? = some i ↔ ∃ a, entries[i]? = some a ∧ key a = k

namespace Table

variable {α κ : Type} [BEq κ] [LawfulBEq κ] [Hashable κ] {key : α → κ}

/-! ## §1. Operations -/

/-- The table without entries. -/
def empty : Table key where
  entries := #[]
  index := ∅
  index_eq_some_iff := by simp

/-- The number of entries. -/
def size (t : Table key) : Nat := t.entries.size

/-- The entry of a number. -/
def get? (t : Table key) (i : Nat) : Option α := t.entries[i]?

/-- The number of the entry with a key. -/
def number? (t : Table key) (k : κ) : Option Nat := t.index[k]?

/-- The index of a longer table knows the new entry beside the old ones. -/
private theorem index_push {t : Table key} {a : α} (h : t.index[key a]? = none) (k : κ) (i : Nat) :
    (t.index.insert (key a) t.entries.size)[k]? = some i
      ↔ ∃ b, (t.entries.push a)[i]? = some b ∧ key b = k := by
  rw [Std.HashMap.getElem?_insert]
  simp only [Array.getElem?_push]
  -- no entry had the key, so the new number overwrites none
  have fresh : ∀ (j : Nat) (b : α), t.entries[j]? = some b → key b ≠ key a := by
    intro j b hb he
    have : t.index[key a]? = some j := (t.index_eq_some_iff _ _).2 ⟨b, hb, he⟩
    rw [h] at this
    cases this
  by_cases hk : key a = k
  · subst hk
    simp only [beq_self_eq_true, if_true, Option.some.injEq]
    constructor
    · intro hi
      exact ⟨a, by simp [hi], rfl⟩
    · rintro ⟨b, hb, he⟩
      by_cases hi : i = t.entries.size
      · exact hi.symm
      · rw [if_neg hi] at hb
        exact absurd he (fresh i b hb)
  · rw [if_neg (by simpa using hk), t.index_eq_some_iff]
    constructor
    · rintro ⟨b, hb, he⟩
      refine ⟨b, ?_, he⟩
      have hi : i < t.entries.size := (Array.getElem?_eq_some_iff.1 hb).1
      rw [if_neg (Nat.ne_of_lt hi), hb]
    · rintro ⟨b, hb, he⟩
      by_cases hi : i = t.entries.size
      · rw [if_pos hi, Option.some.injEq] at hb
        subst hb
        exact absurd he hk
      · rw [if_neg hi] at hb
        exact ⟨b, hb, he⟩

/-- The number of the entry with the key of `a`; `a` becomes an entry when there is none. -/
def intern (t : Table key) (a : α) : Nat × Table key :=
  match h : t.index[key a]? with
  | some i => (i, t)
  | none =>
    (t.entries.size,
      { entries := t.entries.push a
        index := t.index.insert (key a) t.entries.size
        index_eq_some_iff := index_push h })

/-- Interns entries one after the other. -/
def internAll (t : Table key) (as : List α) : Table key := as.foldl (fun t a => (t.intern a).2) t

/-! ## §2. What interning does -/

/-- A number that a key has is that of an entry with the key. -/
theorem get?_eq_some_of_number? {t : Table key} {k : κ} {i : Nat} (h : t.number? k = some i) :
    ∃ a, t.get? i = some a ∧ key a = k :=
  (t.index_eq_some_iff k i).1 h

/-- An entry is found by its key. -/
theorem number?_key {t : Table key} {i : Nat} {a : α} (h : t.get? i = some a) :
    t.number? (key a) = some i :=
  (t.index_eq_some_iff _ _).2 ⟨a, h, rfl⟩

/-- No two entries share a key. -/
theorem get?_injective {t : Table key} {i j : Nat} {a b : α} (hi : t.get? i = some a)
    (hj : t.get? j = some b) (h : key a = key b) : i = j := by
  have := number?_key hi
  rw [h, number?_key hj] at this
  exact (Option.some.inj this).symm

/-- The number that interning gives is that of an entry with the key asked for. -/
theorem exists_get?_intern_fst (t : Table key) (a : α) :
    ∃ b, (t.intern a).2.get? (t.intern a).1 = some b ∧ key b = key a := by
  unfold intern
  split
  · next i h => exact get?_eq_some_of_number? h
  · exact ⟨a, by simp [get?], rfl⟩

/-- Interning keeps the entries that are there. -/
theorem get?_intern {t : Table key} {a : α} {i : Nat} {b : α} (h : t.get? i = some b) :
    (t.intern a).2.get? i = some b := by
  unfold intern
  split
  · exact h
  · have hi : i < t.entries.size := (Array.getElem?_eq_some_iff.1 h).1
    simp only [get?] at h ⊢
    rw [Array.getElem?_push, if_neg (Nat.ne_of_lt hi), h]

/-- An entry whose key is new comes last. -/
theorem entries_intern_of_new {t : Table key} {a : α} (new : ∀ b ∈ t.entries, key b ≠ key a) :
    (t.intern a).2.entries = t.entries.push a := by
  unfold intern
  split
  · next i h =>
    obtain ⟨b, hb, he⟩ := (t.index_eq_some_iff _ _).1 h
    exact absurd he (new b (Array.mem_of_getElem? hb))
  · rfl

/-- Entries whose keys are new come last, in their order. -/
theorem toList_entries_internAll {as : List α} {t : Table key}
    (new : ((t.entries.toList ++ as).map key).Nodup) :
    (t.internAll as).entries.toList = t.entries.toList ++ as := by
  induction as generalizing t with
  | nil => simp [internAll]
  | cons a as ih =>
    -- the first value is new, so it is pushed, and the rest is new to the larger table
    have step : (t.intern a).2.entries = t.entries.push a := by
      apply entries_intern_of_new
      intro b hb he
      rw [List.map_append, List.map_cons, List.nodup_append] at new
      exact new.2.2 (key b) (List.mem_map_of_mem (Array.mem_toList_iff.2 hb)) (key a)
        (List.mem_cons_self ..) he
    have toList : (t.intern a).2.entries.toList = t.entries.toList ++ [a] := by
      rw [step, Array.toList_push]
    show ((t.intern a).2.internAll as).entries.toList = _
    rw [ih (by rw [toList, List.append_assoc]; exact new), toList, List.append_assoc]
    rfl

/-- The number that interning gives is that of an entry. -/
theorem intern_lt (t : Table key) (a : α) : (t.intern a).1 < (t.intern a).2.size := by
  obtain ⟨b, hb, -⟩ := exists_get?_intern_fst t a
  exact (Array.getElem?_eq_some_iff.1 hb).1

/-! ## §3. Tables written down -/

/-- The table with the listed entries. -/
def ofList (as : List α) (new : (as.map key).Nodup) : Table key where
  entries := as.toArray
  index := ((empty : Table key).internAll as).index
  index_eq_some_iff := by
    have toList : ((empty : Table key).internAll as).entries.toList = as :=
      toList_entries_internAll new
    intro k i
    rw [index_eq_some_iff, ← Array.getElem?_toList, toList, List.getElem?_toArray]

/-- A table made of a list has the entries of the list in their order. -/
theorem get?_ofList {as : List α} (new : (as.map key).Nodup) (i : Nat) :
    (ofList as new : Table key).get? i = as[i]? :=
  List.getElem?_toArray

end Table

end Assignability
