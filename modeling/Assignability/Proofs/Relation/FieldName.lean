/-
  Assignability.Proofs.Relation.FieldName
  ───────────────────────────────────────
  **THE NAMES OF A NUMBER.**

  A number is a key by the text it is written as, so it has one name.
  Zero alone has two: the text keeps its sign, and the equality of numbers
  does not see it.  Two fields of an object have one number between them
  where they are called after the two zeros, and nowhere else.  Apart from
  these the field that a key names is the same however the names of the
  fields are numbered.

  Main statement: `numbers_have_one_name`.
-/
import Assignability.Proofs.Atom.Naming
import Assignability.Proofs.Relation.Renumbering

namespace Assignability

variable {ρ ρ' : Type} {B : Handle → Handle → Prop}

/-! ## §1. Numbers and their texts -/

namespace Binary64

variable {x y : Binary64}

/-- What is no number is not zero. -/
theorem isZero_of_isNaN (h : x.isNaN = true) : x.isZero = false := by
  unfold isNaN infiniteMagnitude exponentUnit at h
  unfold isZero
  rw [decide_eq_true_iff] at h
  rw [beq_eq_false_iff_ne]
  omega

/-- The name of a number is zero where the number is. -/
theorem isZero_canonical (x : Binary64) : x.canonical.isZero = x.isZero := by
  unfold canonical
  split
  · next h => rw [isZero_of_isNaN h]; decide
  · split
    · next h => rw [h]; decide
    · rfl

/-- Equality is that of the bits, but for what is not a number and for zero. -/
theorem eq_of_canonical_eq (same : x.canonical = y.canonical) (number : x.isNaN = false)
    (nonzero : x.isZero = false) : x = y := by
  have number' : y.isNaN = false := by rw [← isNaN_canonical, ← same, isNaN_canonical, number]
  have nonzero' : y.isZero = false := by rw [← isZero_canonical, ← same, isZero_canonical, nonzero]
  unfold canonical at same
  simpa [number, nonzero, number', nonzero'] using same

/-- Both zeros have the name of the positive one. -/
theorem canonical_of_isZero (h : x.isZero = true) : x.canonical = zero := by
  have number : x.isNaN = false := by
    rw [← Bool.not_eq_true]
    intro hx
    rw [isZero_of_isNaN hx] at h
    cases h
  unfold canonical
  simp [number, h]

/-- Zero has a sign. -/
theorem eq_of_isZero (h : x.isZero = true) : x = ⟨0⟩ ∨ x = ⟨0x8000000000000000⟩ := by
  obtain ⟨bits⟩ := x
  unfold isZero magnitude signBit at h
  rw [beq_iff_eq] at h
  have lt := bits.toNat_lt
  have two : bits.toNat = 0 ∨ bits.toNat = 0x8000000000000000 := by
    dsimp only at h
    omega
  exact two.imp (fun h => congrArg mk (UInt64.toNat_inj.1 h))
    fun h => congrArg mk (UInt64.toNat_inj.1 h)

end Binary64

namespace Decimal

variable {x y : Binary64} {m n : String}

/-- The two names of zero. -/
def IsZeroName (name : String) : Prop := name = "0" ∨ name = "-0"

/-- Equal numbers are written alike, unless they are zero. -/
theorem text_eq_of_canonical_eq (same : x.canonical = y.canonical) (nonzero : x.isZero = false) :
    text x = text y := by
  cases hx : x.isNaN with
  | true =>
    have hy : y.isNaN = true := by
      rw [← Binary64.isNaN_canonical, ← same, Binary64.isNaN_canonical, hx]
    unfold text
    rw [if_pos hx, if_pos hy]
  | false => rw [Binary64.eq_of_canonical_eq same hx nonzero]

/-- The text of a zero is one of the two names. -/
theorem isZeroName_text (h : x.isZero = true) : IsZeroName (text x) := by
  rcases Binary64.eq_of_isZero h with rfl | rfl
  · exact .inl (by decide)
  · exact .inr (by decide)

/-- Both are texts of a zero. -/
theorem IsZeroName.canonical? (h : IsZeroName m) :
    ∃ x, canonical? m = some x ∧ x.isZero = true := by
  rcases h with rfl | rfl
  · exact ⟨⟨0⟩, by decide, by decide⟩
  · exact ⟨⟨0x8000000000000000⟩, by decide, by decide⟩

/-- Either name reads as a zero. -/
theorem IsZeroName.isZero (h : IsZeroName m) (hm : Decimal.canonical? m = some x) :
    x.isZero = true := by
  obtain ⟨y, hy, zero⟩ := h.canonical?
  rwa [← Option.some.inj (hy.symm.trans hm)]

/-- **EQUAL NUMBERS HAVE ONE NAME, UNLESS THEY ARE ZERO.** -/
theorem canonical_eq_iff (hm : canonical? m = some x) (hn : canonical? n = some y) :
    x.canonical = y.canonical ↔ m = n ∨ IsZeroName m ∧ IsZeroName n := by
  constructor
  · intro same
    cases hx : x.isZero with
    | true =>
      have hy : y.isZero = true := by
        rw [← Binary64.isZero_canonical, ← same, Binary64.isZero_canonical, hx]
      rw [← text_of_canonical? hm, ← text_of_canonical? hn]
      exact .inr ⟨isZeroName_text hx, isZeroName_text hy⟩
    | false =>
      rw [← text_of_canonical? hm, ← text_of_canonical? hn]
      exact .inl (text_eq_of_canonical_eq same hx)
  · rintro (rfl | ⟨zm, zn⟩)
    · rw [Option.some.inj (hm.symm.trans hn)]
    · rw [Binary64.canonical_of_isZero (zm.isZero hm), Binary64.canonical_of_isZero (zn.isZero hn)]

end Decimal

/-! ## §2. Fields of one number -/

section

variable {σ : Store ρ} {τ : Store ρ'} {s : Layout} {x : Binary64} {a b : Atom}

namespace Store

/-- A name of a number is a name of a text. -/
theorem names_of_numberOf? (h : σ.numberOf? a = some x) : σ.Names a (σ.text a) := by
  unfold Names text Pool.resolve
  cases ha : σ.strings.resolve? a with
  | some t => rfl
  | none =>
    have empty : σ.text a = "" := by
      unfold text Pool.resolve
      rw [ha]
      rfl
    have unread : Decimal.canonical? "" = none := by decide
    unfold numberOf? at h
    rw [empty, unread] at h
    cases h

/-- A field is named by a number where it reads as a number of that name. -/
theorem isNameOf_iff : σ.isNameOf x a = true
    ↔ ∃ y, σ.numberOf? a = some y ∧ y.canonical = x.canonical := by
  unfold isNameOf
  rw [beq_iff_eq, Option.map_eq_some_iff]

/-- Names of one text are names of the same numbers. -/
theorem Twins.isNameOf_eq (h : σ.Twins τ a b) {y : Binary64} (same : x.canonical = y.canonical) :
    σ.isNameOf x a = τ.isNameOf y b := by
  unfold isNameOf numberOf?
  rw [h.text, same]

/-- Two names of one number are one name, or those of the two zeros. -/
theorem eq_or_zeros (once : σ.SpellsOnce) (ha : σ.isNameOf x a = true)
    (hb : σ.isNameOf x b = true) : a = b ∨ x.isZero = true ∧
      (σ.Names a "0" ∧ σ.Names b "-0" ∨ σ.Names b "0" ∧ σ.Names a "-0") := by
  obtain ⟨y, hy, same⟩ := isNameOf_iff.1 ha
  obtain ⟨z, hz, same'⟩ := isNameOf_iff.1 hb
  have na := names_of_numberOf? hy
  have nb := names_of_numberOf? hz
  rcases (Decimal.canonical_eq_iff hy hz).1 (same.trans same'.symm) with texts | ⟨za, zb⟩
  · exact .inl (once na (texts ▸ nb))
  · have zero : x.isZero = true := by
      rw [← Binary64.isZero_canonical, ← same, Binary64.isZero_canonical]
      exact za.isZero hy
    -- zero has two names, and no other number has
    rcases za with ta | ta <;> rcases zb with tb | tb <;> rw [ta] at na <;> rw [tb] at nb
    · exact .inl (once na nb)
    · exact .inr ⟨zero, .inl ⟨na, nb⟩⟩
    · exact .inr ⟨zero, .inr ⟨nb, na⟩⟩
    · exact .inl (once na nb)

/-- A zero is named by both its names. -/
theorem Names.isNameOf {text : String} (h : σ.Names a text) (name : Decimal.IsZeroName text)
    (zero : x.isZero = true) : σ.isNameOf x a = true := by
  obtain ⟨y, hy, zero'⟩ := name.canonical?
  have number : σ.numberOf? a = some y := by
    unfold numberOf?
    rw [h.text_eq, hy]
  refine isNameOf_iff.2 ⟨y, number, ?_⟩
  rw [Binary64.canonical_of_isZero zero, Binary64.canonical_of_isZero zero']

end Store

/-- Both names of zero are names of fields. -/
def Layout.NamesZeroTwice (σ : Store ρ) (s : Layout) : Prop :=
  ∃ f ∈ s.fields, ∃ g ∈ s.fields, σ.Names f.name "0" ∧ σ.Names g.name "-0"

/-- Fields of one name are one field. -/
theorem Layout.IsNormal.eq_of_name {f g : Field} (normal : s.IsNormal) (hf : f ∈ s.fields)
    (hg : g ∈ s.fields) (name : f.name = g.name) : f = g := by
  have found := normal.field?_name hf
  rw [name, normal.field?_name hg] at found
  exact (Option.some.inj found).symm

/-- **TWO FIELDS HAVE ONE NUMBER ONLY WHERE THEY ARE CALLED AFTER THE TWO ZEROS.** -/
theorem Layout.IsNormal.exists_two_iff (once : σ.SpellsOnce) (normal : s.IsNormal) :
    (∃ f ∈ s.fields, ∃ g ∈ s.fields, f ≠ g ∧ σ.isNameOf x f.name = true ∧
        σ.isNameOf x g.name = true)
      ↔ x.isZero = true ∧ s.NamesZeroTwice σ := by
  constructor
  · rintro ⟨f, hf, g, hg, apart, nf, ng⟩
    rcases Store.eq_or_zeros once nf ng with same | ⟨zero, names | names⟩
    · exact absurd (normal.eq_of_name hf hg same) apart
    · exact ⟨zero, f, hf, g, hg, names⟩
    · exact ⟨zero, g, hg, f, hf, names⟩
  · rintro ⟨zero, f, hf, g, hg, nf, ng⟩
    refine ⟨f, hf, g, hg, ?_, nf.isNameOf (.inl rfl) zero, ng.isNameOf (.inr rfl) zero⟩
    rintro rfl
    exact absurd (Option.some.inj (nf.symm.trans ng)) (by decide)

/-! ## §3. Numbering -/

/-- A key in one store and the same key in another. -/
inductive Key.Mirrors (σ : Store ρ) (τ : Store ρ') : Key → Key → Prop
  | name {a b : Atom} (h : σ.Twins τ a b) : Mirrors σ τ (.name a) (.name b)
  | number {x y : Binary64} (h : x.canonical = y.canonical) : Mirrors σ τ (.number x) (.number y)

/-- Whether a key is the number zero. -/
def Key.isZero : Key → Bool
  | name _ => false
  | number x => x.isZero

/-- At most one field is called after a number. -/
def Layout.NamesOnce (σ : Store ρ) (s : Layout) (x : Binary64) : Prop :=
  ∀ f ∈ s.fields, ∀ g ∈ s.fields, σ.isNameOf x f.name = true → σ.isNameOf x g.name = true → g = f

/-- In a normal layout, a number names one field, unless it is zero and both names are there. -/
theorem Layout.IsNormal.namesOnce (once : σ.SpellsOnce) (normal : s.IsNormal)
    (sole : ¬ (x.isZero = true ∧ s.NamesZeroTwice σ)) : s.NamesOnce σ x := by
  intro f hf g hg nf ng
  by_contra apart
  exact sole ((normal.exists_two_iff once).1 ⟨g, hg, f, hf, apart, ng, nf⟩)

/-- Then it is so in a mirrored layout. -/
theorem Layout.Mirrors.namesOnce {t : Layout} {y : Binary64} (once' : τ.SpellsOnce)
    (shapes : s.Mirrors σ τ B t) (same : x.canonical = y.canonical) (one : s.NamesOnce σ x) :
    t.NamesOnce τ y := by
  intro f' hf' g' hg' nf' ng'
  obtain ⟨f, hf, ff⟩ := shapes.fields.right f' hf'
  obtain ⟨g, hg, gg⟩ := shapes.fields.right g' hg'
  rw [← ff.name.isNameOf_eq same] at nf'
  rw [← gg.name.isNameOf_eq same] at ng'
  obtain rfl := one f hf g hg nf' ng'
  exact shapes.normal'.eq_of_name hg' hf' (gg.name.unique once' ff.name)

/-- The field of a number is the one field that is called after it. -/
theorem Layout.NamesOnce.field?_number {f : Field} (one : s.NamesOnce σ x) (hf : f ∈ s.fields)
    (named : σ.isNameOf x f.name = true) : (Key.number x).field? σ s = some f := by
  show s.fields.find? (fun f => σ.isNameOf x f.name) = some f
  cases found : s.fields.find? (fun f => σ.isNameOf x f.name) with
  | none => exact absurd named (List.find?_eq_none.1 found f hf)
  | some g =>
    have ng : σ.isNameOf x g.name = true :=
      List.find?_some (p := fun f : Field => σ.isNameOf x f.name) found
    rw [one f hf g (List.mem_of_find?_eq_some found) named ng]

/-- **THE FIELD OF A KEY DOES NOT DEPEND ON HOW NAMES ARE NUMBERED.** -/
theorem Key.Mirrors.field? {t : Layout} {k k' : Key} (once : σ.SpellsOnce) (once' : τ.SpellsOnce)
    (shapes : s.Mirrors σ τ B t) (keys : k.Mirrors σ τ k')
    (sole : ¬ (k.isZero = true ∧ s.NamesZeroTwice σ)) :
    Option.Rel (Field.Mirrors σ τ B) (k.field? σ s) (k'.field? τ t) := by
  cases keys with
  | name h => exact shapes.field? once once' h
  | @number x y same =>
    -- a number may find a field by more than one text; it is the only one on either side
    have one : t.NamesOnce τ y := shapes.namesOnce once' same (shapes.normal.namesOnce once sole)
    cases found : (Key.number x).field? σ s with
    | some f =>
      have named : σ.isNameOf x f.name = true :=
        List.find?_some (p := fun f : Field => σ.isNameOf x f.name) found
      obtain ⟨f', hf', ff⟩ := shapes.fields.left f (List.mem_of_find?_eq_some found)
      rw [ff.name.isNameOf_eq same] at named
      rw [one.field?_number hf' named]
      exact .some ff
    | none =>
      have unnamed : (Key.number y).field? τ t = none := by
        refine List.find?_eq_none.2 fun f' hf' named => ?_
        obtain ⟨f, hf, ff⟩ := shapes.fields.right f' hf'
        rw [← ff.name.isNameOf_eq same] at named
        exact List.find?_eq_none.1 found f hf named
      rw [unnamed]
      exact .none

end

/-- **A NUMBER HAS ONE NAME, UNLESS IT IS ZERO.**  Names of equal numbers are equal, or they are the
two names of zero.  So in every store two fields of an object are called after one number exactly
where that is zero and both its names are declared; and but for this the field that a key names is
the same in any two stores, in whatever order their names came. -/
theorem numbers_have_one_name :
    (∀ {m n : String} {x y : Binary64}, Decimal.canonical? m = some x →
      Decimal.canonical? n = some y →
      (x.canonical = y.canonical ↔ m = n ∨ Decimal.IsZeroName m ∧ Decimal.IsZeroName n)) ∧
    ∀ {assign : String → Fin 64} {σ : Store ρ} {s : Layout}, (Store.new assign).Evolves σ →
      s.IsNormal →
      (∀ x : Binary64, (∃ f ∈ s.fields, ∃ g ∈ s.fields, f ≠ g ∧ σ.isNameOf x f.name = true ∧
        σ.isNameOf x g.name = true) ↔ x.isZero = true ∧ s.NamesZeroTwice σ) ∧
      ∀ {assign' : String → Fin 64} {τ : Store ρ'} {t : Layout} {B : Handle → Handle → Prop}
        {k k' : Key}, (Store.new assign').Evolves τ → s.Mirrors σ τ B t → k.Mirrors σ τ k' →
        ¬ (k.isZero = true ∧ s.NamesZeroTwice σ) →
        Option.Rel (Field.Mirrors σ τ B) (k.field? σ s) (k'.field? τ t) := by
  refine ⟨Decimal.canonical_eq_iff, fun made normal => ?_⟩
  have once : Store.SpellsOnce _ := Store.spellsOnce_of_evolves made
  refine ⟨fun x => normal.exists_two_iff once, fun made' shapes keys sole => ?_⟩
  exact keys.field? once (Store.spellsOnce_of_evolves made') shapes sole

/-- A new store with the texts `0` and `1`, which are alone in the shards `i` and `j`. -/
def Store.ofDigits (i j : Nat) : Store Unit :=
  (Call.text "1").carryOut ((Call.text "0").carryOut (Store.new fun text =>
    Pool.shardOf ⟨if text = "0" then i else if text = "1" then j else 3⟩))

/-- Its names can be read off. -/
theorem Store.names_ofDigits {i j : Nat} {a : Atom} {text : String}
    (h : (Pool.belonging
      (fun text => Pool.shardOf ⟨if text = "0" then i else if text = "1" then j else 3⟩)
      (Pool.stringsOf (Pool.commonNames ++ ["0"] ++ ["1"])) (Pool.shardOf a))[Pool.placeOf a]?
        = some text) : (ofDigits i j).Names a text := by
  have strings : (ofDigits i j).strings = (Pool.empty fun text =>
      Pool.shardOf ⟨if text = "0" then i else if text = "1" then j else 3⟩).internAll
        (Pool.commonNames ++ ["0"] ++ ["1"]) := by
    rw [Pool.internAll_append, Pool.internAll_append, ← strings_new]
    unfold ofDigits
    generalize (Store.new _ : Store Unit) = σ
    rfl
  unfold Names
  rw [strings, (Pool.holds_internAll (.of_length (by decide))).resolve?_eq]
  exact h

/-- Fields called `0` and `1`, in one order and in the other; the number is a zero of either
sign. -/
theorem numbers_have_one_name_twoDigits :
    let s : Layout := { fields := [⟨⟨1⟩, ⟨8⟩, false, false⟩, ⟨⟨2⟩, ⟨9⟩, false, false⟩] }
    let t : Layout := { fields := [⟨⟨1⟩, ⟨9⟩, false, false⟩, ⟨⟨2⟩, ⟨8⟩, false, false⟩] }
    let σ := Store.ofDigits 1 2
    let τ := Store.ofDigits 2 1
    Binary64.canonical ⟨0⟩ = Binary64.canonical ⟨0x8000000000000000⟩ ∧
      Option.Rel (Field.Mirrors σ τ Eq) ((Key.number ⟨0x8000000000000000⟩).field? σ s)
        ((Key.number ⟨0⟩).field? τ t) := by
  intro s t σ τ
  have first : σ.Twins τ ⟨1⟩ ⟨2⟩ :=
    ⟨"0", Store.names_ofDigits (by decide), Store.names_ofDigits (by decide)⟩
  have second : σ.Twins τ ⟨2⟩ ⟨1⟩ :=
    ⟨"1", Store.names_ofDigits (by decide), Store.names_ofDigits (by decide)⟩
  have normal : s.IsNormal := by
    unfold Layout.IsNormal
    decide
  have normal' : t.IsNormal := by
    unfold Layout.IsNormal
    decide
  have shapes : s.Mirrors σ τ Eq t := by
    have fields : ∀ {a b : Atom} {h : Handle}, σ.Twins τ a b →
        Field.Mirrors σ τ Eq ⟨a, h, false, false⟩ ⟨b, h, false, false⟩ :=
      fun names => ⟨names, rfl, rfl, rfl⟩
    refine ⟨normal, normal', ⟨?_, ?_⟩, .none⟩
    · simp [s, t, fields first, fields second]
    · simp [s, t, fields first, fields second]
  have sole : ¬ ((Key.number ⟨0x8000000000000000⟩).isZero = true ∧ s.NamesZeroTwice σ) := by
    -- there is no field that is called after the other zero
    rintro ⟨-, -, -, g, hg, -, ng⟩
    have texts : ∀ f ∈ s.fields, σ.Names f.name "0" ∨ σ.Names f.name "1" := by
      obtain ⟨zero, one⟩ : σ.Names ⟨1⟩ "0" ∧ σ.Names ⟨2⟩ "1" :=
        ⟨Store.names_ofDigits (by decide), Store.names_ofDigits (by decide)⟩
      simp [s, zero, one]
    rcases texts g hg with h | h <;> exact absurd (Option.some.inj (h.symm.trans ng)) (by decide)
  have made : ∀ i j, ∃ assign, (Store.new assign).Evolves (Store.ofDigits i j) :=
    fun i j => ⟨_, ((Store.Evolves.refl _).call _).call _⟩
  obtain ⟨_, hσ⟩ := made 1 2
  obtain ⟨_, hτ⟩ := made 2 1
  obtain ⟨names, fields⟩ := numbers_have_one_name
  refine ⟨(names (m := "0") (n := "-0") (by decide) (by decide)).2 (.inr ⟨.inl rfl, .inr rfl⟩), ?_⟩
  exact (fields hσ normal).2 hτ shapes (.number (by decide)) sole

end Assignability
