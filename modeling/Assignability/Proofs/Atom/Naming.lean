/-
  Assignability.Proofs.Atom.Naming
  ────────────────────────────────
  **ATOMS ARE NAMES.**

  Whatever shard each string is put into, and in whatever order strings
  are interned, a pool holds the strings that were interned and the empty
  one: a shard holds those that belong to it, in the order in which they
  first came (`Pool.Holds`).  So an atom is the name of one string, now
  and after every later call.

  A shard that has no place left turns strings away; that this does not
  happen is a condition on the calls alone (`Pool.HasRoom`).

  Main statement: `atoms_are_names`.
-/
import Assignability.Proofs.Store.Naming
import Mathlib.Data.List.Induction

namespace Assignability.Pool

variable {p : Pool} {assign : String → Fin 64} {texts calls : List String} {s t : String}
  {a b : Atom}

/-! ## §1. One call -/

/-- The pool with another shard in one place. -/
def withShard (p : Pool) {i : Nat} (h : i < 64) (shard : Shard) : Pool :=
  { p with shards := p.shards.set i shard h }

/-- A shard that is put in place is found there, and the others are as they were. -/
theorem shard_withShard (i j : Fin 64) (x : Shard) :
    (p.withShard i.isLt x).shard j = if i = j then x else p.shard j := by
  unfold withShard shard
  rw [Fin.getElem_fin, Fin.getElem_fin, Vector.getElem_set]
  simp only [Fin.ext_iff]

/-- One entry more in one place is one more in all. -/
theorem foldl_set {α : Type} (f : α → Nat) (x : α) (xs : List α) :
    ∀ (i n : Nat) (h : i < xs.length), f x = f xs[i] + 1 →
      (xs.set i x).foldl (fun n a => n + f a) n = xs.foldl (fun n a => n + f a) n + 1 := by
  -- one more at the start is one more at the end
  have shift : ∀ (xs : List α) (n : Nat),
      xs.foldl (fun n a => n + f a) (n + 1) = xs.foldl (fun n a => n + f a) n + 1 := by
    intro xs
    induction xs with
    | nil => exact fun _ => rfl
    | cons a xs ih =>
      intro n
      rw [List.foldl_cons, List.foldl_cons, Nat.add_right_comm, ih]
  induction xs with
  | nil => exact fun _ _ h => absurd h (Nat.not_lt_zero _)
  | cons a xs ih =>
    intro i n h more
    cases i with
    | zero =>
      have more : f x = f a + 1 := more
      rw [List.set_cons_zero, List.foldl_cons, List.foldl_cons, more, ← Nat.add_assoc, shift]
    | succ i => exact ih i (n + f a) (Nat.lt_of_succ_lt_succ h) more

/-- A shard with one entry more makes the pool one entry larger. -/
theorem size_withShard {i : Fin 64} {x : Shard} (more : x.size = (p.shard i).size + 1) :
    (p.withShard i.isLt x).size = p.size + 1 := by
  unfold size withShard
  dsimp only
  rw [← Vector.foldl_toList, ← Vector.foldl_toList, Vector.toList_set]
  refine foldl_set Table.size x p.shards.toList i 0 (by simp) ?_
  rw [Vector.getElem_toList]
  exact more

/-- A string that is new to a shard comes last there. -/
theorem entries_intern {x : Shard} (new : s ∉ x.entries) :
    (x.intern s).2.entries = x.entries.push s :=
  Table.entries_intern_of_new fun _ ht same => new ((show _ = s from same) ▸ ht)

/-- What comes of interning a string. -/
inductive Interned (s : String) (p : Pool) : Atom × Pool → Prop
  | empty (h : s = "") : Interned s p (.none, p)
  | found {place : Nat} (h : s ≠ "") (hs : (p.shard (p.assign s)).get? place = some s) :
    Interned s p (atomOf (p.assign s) place, p)
  | refused (h : s ≠ "") (new : s ∉ (p.shard (p.assign s)).entries)
    (full : lastPlace < (p.shard (p.assign s)).size) : Interned s p (.none, p)
  | added (h : s ≠ "") (new : s ∉ (p.shard (p.assign s)).entries)
    (room : (p.shard (p.assign s)).size ≤ lastPlace) :
    Interned s p (atomOf (p.assign s) (p.shard (p.assign s)).size,
      p.withShard (p.assign s).isLt ((p.shard (p.assign s)).intern s).2)

/-- Interning goes one of the ways that are told apart here. -/
theorem interned (s : String) (p : Pool) : Interned s p (p.intern s) := by
  unfold intern
  split
  · next h => exact .empty h
  · next h =>
    dsimp only
    split
    · next place found =>
      obtain ⟨_, hs, rfl⟩ := Table.get?_eq_some_of_number? found
      exact .found h hs
    -- not found in the index, so not among the entries either
    · next absent =>
      have new : s ∉ (p.shard (p.assign s)).entries := by
        intro hs
        obtain ⟨place, hplace⟩ := Array.mem_iff_getElem?.1 hs
        have number := Table.number?_key (t := p.shard (p.assign s)) hplace
        exact absurd (absent.symm.trans number) nofun
      split
      · next full => exact .refused h new full
      · next room =>
        -- the place that is handed out is the size before the text was added
        have place : ((p.shard (p.assign s)).intern s).1 = (p.shard (p.assign s)).size := by
          unfold Table.intern
          unfold Table.number? at absent
          split
          · next i hi => exact absurd (absent.symm.trans hi) nofun
          · rfl
        have result := Interned.added h new (Nat.le_of_not_lt room)
        rw [← place] at result
        exact result

/-- Interning a string adds no other string, under no other atom. -/
theorem resolve?_of_intern (h : (p.intern s).2.resolve? a = some t) :
    p.resolve? a = some t ∨ ((p.intern s).1 = a ∧ t = s) := by
  have call := interned s p
  generalize p.intern s = r at call h
  cases call with
  | empty | found | refused => exact .inl h
  | added _ new room =>
    unfold resolve? at h ⊢
    dsimp only at h
    rw [shard_withShard] at h
    split at h
    · next same =>
      unfold Table.get? at h
      rw [entries_intern new, Array.getElem?_push] at h
      split at h
      -- the place behind the last one was free before
      · next last =>
        refine .inr ⟨?_, (Option.some.inj h).symm⟩
        show atomOf (p.assign s) (p.shard (p.assign s)).entries.size = a
        rw [← last, same, atomOf_shardOf_placeOf]
      · rw [same] at h
        exact .inl h
    · exact .inl h

/-! ## §2. The strings of a pool -/

/-- The strings that a pool holds after some calls: the empty one, and the others in the order in
which they first came. -/
def stringsOf (calls : List String) : List String := ("" :: calls).eraseDups

/-- The strings of some calls are those asked for, and the empty string, which is there from the
start. -/
theorem mem_stringsOf : s ∈ stringsOf calls ↔ s = "" ∨ s ∈ calls := by
  unfold stringsOf
  rw [List.mem_eraseDups, List.mem_cons]

/-- The strings with one more, if that is new. -/
def adding (s : String) (texts : List String) : List String :=
  if s ∈ texts then texts else texts ++ [s]

/-- A further call adds its text where it is not among the others. -/
theorem stringsOf_append (calls : List String) (s : String) :
    stringsOf (calls ++ [s]) = adding s (stringsOf calls) := by
  unfold adding
  have split : stringsOf (calls ++ [s])
      = stringsOf calls ++ ([s].removeAll ("" :: calls)).eraseDups :=
    @List.eraseDups_append _ _ _ ("" :: calls) _
  rw [split]
  -- a text that was there before is removed again, the empty one always is
  by_cases old : s ∈ stringsOf calls
  · have none : [s].removeAll ("" :: calls) = [] := by
      have listed : s ≠ "" → s ∈ calls := (mem_stringsOf.1 old).resolve_left
      simpa [List.removeAll] using listed
    rw [if_pos old, none]
    exact List.append_nil _
  · have all : [s].removeAll ("" :: calls) = [s] := by
      have unlisted : s ∉ "" :: calls := fun h => old (List.mem_eraseDups.2 h)
      simpa [List.removeAll] using unlisted
    rw [if_neg old, all]
    rfl

/-- The strings that belong to a shard. -/
def belonging (assign : String → Fin 64) (texts : List String) (i : Fin 64) : List String :=
  texts.filter fun t => (empty assign).shardFor t == i

/-- A further text belongs to its own shard and to no other. -/
theorem belonging_append (i : Fin 64) : belonging assign (texts ++ [s]) i
    = belonging assign texts i ++ if (empty assign).shardFor s = i then [s] else [] := by
  unfold belonging
  rw [List.filter_append]
  congr 1
  split
  · next own => exact List.filter_cons_of_pos (by simpa using own)
  · next other => exact List.filter_cons_of_neg (by simpa using other)

/-- No shard has to hold more strings than its atoms can number. -/
def HasRoom (assign : String → Fin 64) (calls : List String) : Prop :=
  ∀ i, (belonging assign (stringsOf calls) i).length ≤ lastPlace + 1

/-- What has room has room on the way. -/
theorem HasRoom.before (room : HasRoom assign (calls ++ texts)) : HasRoom assign calls := by
  intro i
  have part : stringsOf (calls ++ texts) = stringsOf calls ++ _ :=
    @List.eraseDups_append _ _ _ ("" :: calls) _
  have whole := room i
  unfold belonging at whole ⊢
  rw [part, List.filter_append, List.length_append] at whole
  omega

/-- The pool holds the listed strings, each in its shard, in their order. -/
structure Holds (assign : String → Fin 64) (p : Pool) (texts : List String) : Prop where
  assigned : p.assign = assign
  shards : ∀ i, (p.shard i).entries.toList = belonging assign texts i
  size : p.size = texts.length

namespace Holds

variable (holds : Holds assign p texts)
include holds

/-- A string goes to the shard that the assignment names for it. -/
theorem shardFor_eq (s : String) : p.shardFor s = (empty assign).shardFor s := by
  unfold shardFor
  rw [holds.assigned]
  rfl

/-- A shard has as many entries as there are strings that belong to it. -/
theorem size_shard (i : Fin 64) : (p.shard i).size = (belonging assign texts i).length := by
  rw [← holds.shards]
  exact Array.length_toList.symm

/-- A string is in its shard where it was interned. -/
theorem mem_entries : s ∈ (p.shard (p.shardFor s)).entries ↔ s ∈ texts := by
  rw [← Array.mem_toList_iff, holds.shards, holds.shardFor_eq]
  unfold belonging
  simp

/-- An atom resolves to the string in its place among those of its shard. -/
theorem resolve?_eq (a : Atom) :
    p.resolve? a = (belonging assign texts (shardOf a))[placeOf a]? := by
  rw [← holds.shards]
  exact Array.getElem?_toList.symm

/-- Only what the pool holds has an atom. -/
theorem mem_of_resolve? (h : p.resolve? a = some t) : t ∈ texts := by
  have entry : t ∈ (p.shard (shardOf a)).entries := Array.mem_of_getElem? h
  rw [← Array.mem_toList_iff, holds.shards] at entry
  exact (List.mem_filter.1 entry).1

section

variable (room : ∀ i, (belonging assign (adding s texts) i).length ≤ lastPlace + 1)
include room

/-- There is a place for a new string in its shard. -/
theorem size_le (nonempty : s ≠ "") (new : s ∉ (p.shard (p.assign s)).entries) :
    (p.shard (p.assign s)).size ≤ lastPlace := by
  have place : p.shardFor s = p.assign s := if_neg nonempty
  have own : (empty assign).shardFor s = p.assign s := by rw [← holds.shardFor_eq, place]
  have unheld : s ∉ texts := by rwa [← holds.mem_entries, place]
  have enough := room (p.assign s)
  unfold adding at enough
  rw [if_neg unheld, belonging_append, if_pos own, List.length_append, ← holds.size_shard] at enough
  exact Nat.le_of_succ_le_succ enough

/-- **A CALL ADDS ITS STRING, IF THAT IS NEW.** -/
theorem intern (first : "" ∈ texts) : Holds assign (p.intern s).2 (adding s texts) := by
  have call := interned s p
  generalize p.intern s = r at call
  have place : s ≠ "" → p.shardFor s = p.assign s := fun h => if_neg h
  unfold adding
  cases call with
  | empty h =>
    rw [if_pos (h ▸ first)]
    exact holds
  -- found: no text is new, and the pool stays
  | found h hs =>
    have old : s ∈ texts := by
      rw [← holds.mem_entries, place h]
      exact Array.mem_of_getElem? hs
    rw [if_pos old]
    exact holds
  -- refused: a full shard is what the room excludes
  | refused h new full => exact absurd full (Nat.not_lt_of_le (holds.size_le room h new))
  -- added: the text is new, and its shard holds one more
  | added h new _ =>
    have unheld : s ∉ texts := by rwa [← holds.mem_entries, place h]
    have more : ((p.shard (p.assign s)).intern s).2.size = (p.shard (p.assign s)).size + 1 := by
      unfold Table.size
      rw [entries_intern new, Array.size_push]
    rw [if_neg unheld]
    constructor
    · exact holds.assigned
    · intro i
      rw [shard_withShard, belonging_append, ← holds.shards, ← holds.shardFor_eq, place h]
      split
      · next same => rw [entries_intern new, Array.toList_push, same]
      · exact (List.append_nil _).symm
    -- the sizes of both sides grow by one
    · rw [size_withShard more, holds.size, List.length_append]
      rfl

/-- The atom that a call gives is that of its string. -/
theorem resolve?_interned (first : p.resolve? .none = some "") :
    (p.intern s).2.resolve? (p.intern s).1 = some s := by
  have call := interned s p
  generalize p.intern s = r at call
  cases call with
  | empty h => exact h ▸ first
  | found h hs =>
    unfold resolve?
    rw [shardOf_atomOf, placeOf_atomOf]
    exact hs
  | refused h new full => exact absurd full (Nat.not_lt_of_le (holds.size_le room h new))
  | added h new _ =>
    unfold resolve?
    rw [shardOf_atomOf, placeOf_atomOf, shard_withShard, if_pos rfl]
    unfold Table.get? Table.size
    rw [entries_intern new]
    exact Array.getElem?_push_size

end

end Holds

/-- A new pool holds the empty string. -/
theorem holds_empty (assign : String → Fin 64) : Holds assign (empty assign) (stringsOf []) := by
  -- it is a pool without strings, with the empty one put into the first shard
  let bare : Pool := ⟨assign, Vector.replicate 64 Table.empty⟩
  have shards : ∀ i, bare.shard i = Table.empty := fun i => Vector.getElem_replicate ..
  have noStrings : bare.size = 0 := by
    unfold size
    rw [← Vector.foldl_toList, Vector.toList_replicate]
    rfl
  have entries : ((Table.empty : Shard).intern "").2.entries = #[""] := entries_intern nofun
  have first : empty assign =
      bare.withShard (0 : Fin 64).isLt ((Table.empty : Shard).intern "").2 := rfl
  constructor
  · rfl
  · intro i
    have none : belonging assign (stringsOf []) i = if 0 = i then [""] else [] := by
      unfold belonging
      split
      · next own => exact List.filter_cons_of_pos (by simpa [shardFor] using own)
      · next other => exact List.filter_cons_of_neg (by simpa [shardFor] using other)
    rw [first, shard_withShard, none, shards]
    split
    · rw [entries]
    · rfl
  · rw [first, size_withShard, noStrings]
    · rfl
    · rw [shards]
      exact congrArg Array.size entries

/-- The last call comes after the others. -/
theorem internAll_append (p : Pool) (calls : List String) (s : String) :
    p.internAll (calls ++ [s]) = ((p.internAll calls).intern s).2 :=
  List.foldl_concat ..

/-- **A POOL HOLDS WHAT WAS INTERNED, AND THE EMPTY STRING.** -/
theorem holds_internAll (room : HasRoom assign calls) :
    Holds assign ((empty assign).internAll calls) (stringsOf calls) := by
  induction calls using List.reverseRecOn with
  | nil => exact holds_empty assign
  | append_singleton calls s ih =>
    have holds := ih room.before
    unfold HasRoom at room
    rw [stringsOf_append] at room ⊢
    rw [internAll_append]
    exact holds.intern room (mem_stringsOf.2 (.inl rfl))

/-! ## §3. Atoms that were given out -/

/-- One of the calls was for the string, and gave the atom. -/
def Gave (assign : String → Fin 64) (calls : List String) (s : String) (a : Atom) : Prop :=
  ∃ before after, calls = before ++ s :: after ∧
    (((empty assign).internAll before).intern s).1 = a

/-- The atoms that a pool has given out: that of the empty string, which it holds from the start,
and those that calls gave. -/
def GivenOut (assign : String → Fin 64) (calls : List String) (a : Atom) : Prop :=
  a = .none ∨ ∃ s, Gave assign calls s a

/-- An atom that was given stays the one that was given, whatever is asked for later. -/
theorem Gave.append (gave : Gave assign calls s a) (later : List String) :
    Gave assign (calls ++ later) s a := by
  obtain ⟨before, after, rfl, h⟩ := gave
  exact ⟨before, after ++ later, by simp, h⟩

/-- What an atom resolves to, it resolves to after all later calls. -/
theorem resolve?_internAll (h : p.resolve? a = some s) (later : List String) :
    (p.internAll later).resolve? a = some s := by
  induction later generalizing p with
  | nil => exact h
  | cons t later ih => exact ih (resolve?_intern h)

/-- Calls around one call are made before it and after it. -/
theorem internAll_cons_append (p : Pool) (before after : List String) (s : String) :
    p.internAll (before ++ s :: after) = ((p.internAll before).intern s).2.internAll after := by
  unfold internAll
  rw [List.foldl_append]
  rfl

/-- **THE ATOM THAT A CALL GAVE RESOLVES TO ITS STRING EVER AFTER.** -/
theorem Gave.resolve? (gave : Gave assign calls s a) (room : HasRoom assign calls) :
    ((empty assign).internAll calls).resolve? a = some s := by
  obtain ⟨before, after, rfl, rfl⟩ := gave
  have room : HasRoom assign ((before ++ [s]) ++ after) := by rwa [List.append_assoc]
  have roomThen : HasRoom assign (before ++ [s]) := room.before
  have holds := holds_internAll roomThen.before
  unfold HasRoom at roomThen
  rw [stringsOf_append] at roomThen
  rw [internAll_cons_append]
  exact resolve?_internAll (holds.resolve?_interned roomThen (resolve?_none assign before)) after

/-- Nothing but what was given out resolves. -/
theorem givenOut_of_resolve? (h : ((empty assign).internAll calls).resolve? a = some s) :
    GivenOut assign calls a := by
  induction calls using List.reverseRecOn generalizing s with
  | nil =>
    left
    have listed : s ∈ [""] := (holds_empty assign).mem_of_resolve? h
    obtain rfl := List.mem_singleton.1 listed
    exact (inPlace_empty assign).unique h (resolve?_none assign [])
  | append_singleton calls t ih =>
    rw [internAll_append] at h
    rcases resolve?_of_intern h with h | ⟨rfl, -⟩
    · exact (ih h).imp_right fun ⟨u, gave⟩ => ⟨u, gave.append [t]⟩
    · exact .inr ⟨t, calls, [], rfl, rfl⟩

/-- Atoms that were given out have thirty-two bits. -/
theorem number_le_of_resolve? (room : HasRoom assign calls)
    (h : ((empty assign).internAll calls).resolve? a = some s) : a.number ≤ 0xffffffff := by
  have place : placeOf a < (((empty assign).internAll calls).shard (shardOf a)).size :=
    (Array.getElem?_eq_some_iff.1 h).1
  rw [(holds_internAll room).size_shard] at place
  have few := room (shardOf a)
  unfold placeOf at place
  unfold lastPlace at few
  omega

/-! ## §4. Sequences of calls -/

/-- As many calls as a shard has places have room, whatever the shards are. -/
theorem HasRoom.of_length (few : calls.length ≤ lastPlace) : HasRoom assign calls := by
  have length : (stringsOf calls).length ≤ calls.length + 1 := by
    clear few
    induction calls using List.reverseRecOn with
    | nil => exact Nat.le_refl 1
    | append_singleton calls s ih =>
      rw [stringsOf_append]
      unfold adding
      split <;> simp <;> omega
  intro i
  have part : (belonging assign (stringsOf calls) i).length ≤ (stringsOf calls).length :=
    List.length_filter_le ..
  omega

/-- The strings of a pool are the empty one and those that are not empty, each once. -/
theorem length_stringsOf (calls : List String) :
    (stringsOf calls).length = (calls.filter (· != "")).eraseDups.length + 1 := by
  unfold stringsOf
  rw [List.eraseDups_cons, List.length_cons]
  rfl

/-- **ATOMS ARE NAMES.**  Whatever shard each string belongs to, and whatever strings are interned
in whatever order, as long as the shards have room for them: two calls give one atom exactly where
they are for one string, and only the empty string has the atom of none; an atom has thirty-two
bits, and it resolves to its string from the call that gave it on; an atom that was not given out
resolves to nothing; and the size is one more than the number of strings other than the empty
one. -/
theorem atoms_are_names (assign : String → Fin 64) (calls : List String)
    (room : HasRoom assign calls) :
    let p := (empty assign).internAll calls
    (∀ s a t b, Gave assign calls s a → Gave assign calls t b → (a = b ↔ s = t)) ∧
      (∀ s a, Gave assign calls s a → (a = .none ↔ s = "") ∧ a.number ≤ 0xffffffff) ∧
      (∀ before after, calls = before ++ after → ∀ s a, Gave assign before s a →
        ((empty assign).internAll before).resolve a = s ∧ p.resolve a = s) ∧
      (∀ a, p.resolve? a = none ↔ ¬ GivenOut assign calls a) ∧
      p.size = (calls.filter (· != "")).eraseDups.length + 1 := by
  intro p
  -- two facts carry all parts: a text has one place, and what was given stays resolvable
  have inPlace : p.InPlace := (inPlace_empty assign).internAll calls
  have none : p.resolve? .none = some "" := resolve?_none assign calls
  have same : ∀ {s a t b}, p.resolve? a = some s → p.resolve? b = some t → (a = b ↔ s = t) := by
    intro s a t b ha hb
    constructor
    · rintro rfl
      exact Option.some.inj (ha.symm.trans hb)
    · rintro rfl
      exact inPlace.unique ha hb
  refine ⟨fun s a t b ha hb => same (ha.resolve? room) (hb.resolve? room), ?_, ?_, ?_, ?_⟩
  · intro s a ha
    have resolved := ha.resolve? room
    exact ⟨same resolved none, number_le_of_resolve? room resolved⟩
  -- now and later: the calls after it do not move what was given
  · rintro before after rfl s a ha
    have now := ha.resolve? room.before
    have later := (ha.append after).resolve? room
    unfold resolve
    exact ⟨by rw [now]; rfl, by rw [later]; rfl⟩
  · intro a
    constructor
    · rintro nowhere (rfl | ⟨s, ha⟩)
      · exact absurd (none.symm.trans nowhere) nofun
      · exact absurd ((ha.resolve? room).symm.trans nowhere) nofun
    · intro unused
      cases resolved : p.resolve? a with
      | none => rfl
      | some s => exact absurd (givenOut_of_resolve? resolved) unused
  -- one entry for each text, and one for the empty atom
  · rw [(holds_internAll room).size, length_stringsOf]

/-- Four calls for two strings and the empty one, all of one shard. -/
theorem atoms_are_names_fourCalls :
    let assign : String → Fin 64 := fun _ => shardOf ⟨5⟩
    let calls := ["id", "", "name", "id"]
    let p := (empty assign).internAll calls
    HasRoom assign calls ∧
      (∀ a b, Gave assign calls "id" a → Gave assign calls "name" b → a ≠ b ∧ a ≠ .none) ∧
      (∀ a, Gave assign ["id"] "id" a → p.resolve a = "id") ∧ p.size = 3 := by
  intro assign calls p
  have room : HasRoom assign calls := .of_length (by decide)
  obtain ⟨apart, empty, resolves, -, size⟩ := atoms_are_names assign calls room
  refine ⟨room, fun a b ha hb => ⟨fun same => ?_, fun same => ?_⟩, fun a ha => ?_, size⟩
  · exact absurd ((apart _ a _ b ha hb).1 same) (by decide)
  · exact absurd ((empty _ a ha).1.1 same) (by decide)
  · exact (resolves ["id"] _ rfl _ a ha).2

end Assignability.Pool
