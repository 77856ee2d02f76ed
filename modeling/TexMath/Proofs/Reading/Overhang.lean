import TexMath.Proofs.Reading.Construction

/-!
# Placeholders behind the end of their atom

Where missing arguments are filled in, the spans are still nested as their atoms are, but for the
placeholders: a placeholder stands where the next lexeme starts, and the atom that it belongs to
ends with the last lexeme taken.  Only white space and comments come between the two.
-/

namespace TexMath

variable {source : String} {low stop : Nat} {span outer : Span}

theorem Span.Inside.trans {inner : Span} (h : inner.Inside span) (houter : span.Inside outer) :
    inner.Inside outer :=
  ⟨Nat.le_trans houter.1 h.1, Nat.le_trans h.2 houter.2⟩

theorem Span.inside_cover_left (a b : Span) : a.Inside (a.cover b) :=
  ⟨Nat.min_le_left .., Nat.le_max_left ..⟩

theorem Span.inside_cover_right (a b : Span) : b.Inside (a.cover b) :=
  ⟨Nat.min_le_right .., Nat.le_max_right ..⟩

theorem Span.Inside.cover {a b : Span} (ha : a.Inside outer) (hb : b.Inside outer) :
    (a.cover b).Inside outer :=
  ⟨Nat.le_min.mpr ⟨ha.1, hb.1⟩, Nat.max_le.mpr ⟨ha.2, hb.2⟩⟩

/-! ## Atoms and what lies below them -/

namespace Atom

/-- The atom is a placeholder behind the span, and nothing that means anything comes between. -/
def Trails (source : String) (atom : Atom) (span : Span) : Prop :=
  ∃ offset, atom = .symbol .placeholder "□" (.point offset) ∧ span.start ≤ offset ∧
    BlankBetween source span.stop offset

def Within (source : String) (atom : Atom) (span : Span) : Prop :=
  atom.span.Inside span ∨ atom.Trails source span

inductive Nested (source : String) : Atom → Prop
  | intro {atom : Atom} : (∀ slot ∈ atom.slots, ∀ inner ∈ slot, inner.Within source atom.span) →
      (∀ slot ∈ atom.slots, ∀ inner ∈ slot, Nested source inner) → Nested source atom

/-- An atom of a row that covers the span. -/
structure Lies (source : String) (span : Span) (atom : Atom) : Prop where
  nested : atom.Nested source
  inside : atom.span.Inside span

/-- An atom below one that covers the span. -/
structure Fits (source : String) (span : Span) (atom : Atom) : Prop where
  nested : atom.Nested source
  within : atom.Within source span

variable {atom : Atom}

theorem Within.mono (h : atom.Within source span) (houter : span.Inside outer) :
    atom.Within source outer := by
  rcases h with hinside | ⟨offset, rfl, hstart, hblank⟩
  · exact .inl (hinside.trans houter)
  have hlow := Nat.le_trans houter.1 hstart
  by_cases hstop : offset ≤ outer.stop
  · exact .inl ⟨hlow, hstop⟩
  · exact .inr ⟨offset, rfl, hlow, Nat.le_of_not_le hstop, hblank.le_size,
      fun byte hbyte => hblank.blank byte (Nat.le_trans houter.2 hbyte)⟩

theorem Nested.of_slots (h : ∀ slot ∈ atom.slots, ∀ inner ∈ slot, inner.Fits source atom.span) :
    atom.Nested source :=
  .intro (fun slot hslot inner hinner => (h slot hslot inner hinner).within)
    fun slot hslot inner hinner => (h slot hslot inner hinner).nested

theorem Nested.fits (h : atom.Nested source) {slot : Formula} (hslot : slot ∈ atom.slots) :
    ∀ inner ∈ slot, inner.Fits source atom.span := by
  obtain ⟨hwithin, hnested⟩ := h
  exact fun inner hinner => ⟨hnested slot hslot inner hinner, hwithin slot hslot inner hinner⟩

theorem span_withScript (atom : Atom) (which : Script) (content : Formula) (place : Span) :
    (atom.withScript which content place).span = atom.span.cover place := by
  cases which <;> rfl

theorem nested_symbol (source : String) (kind : AtomKind) (nucleus : String) (span : Span) :
    (symbol kind nucleus span).Nested source :=
  .of_slots (by simp [symbol, slots])

theorem Lies.fits (h : atom.Lies source span) : atom.Fits source span := ⟨h.nested, .inl h.inside⟩

theorem Fits.mono (h : atom.Fits source span) (houter : span.Inside outer) :
    atom.Fits source outer := ⟨h.nested, h.within.mono houter⟩

theorem Lies.mono (h : atom.Lies source span) (houter : span.Inside outer) :
    atom.Lies source outer := ⟨h.nested, h.inside.trans houter⟩

theorem Nested.withScript (h : atom.Nested source) (which : Script) {content : Formula}
    {place : Span} (hcontent : ∀ inner ∈ content, inner.Fits source place) :
    (atom.withScript which content place).Nested source := by
  refine .of_slots fun slot hslot inner hinner => ?_
  rw [span_withScript]
  rcases eq_or_mem_slots_of_withScript atom which content place hslot with rfl | hold
  · exact (hcontent inner hinner).mono (Span.inside_cover_right _ _)
  · exact (h.fits hold inner hinner).mono (Span.inside_cover_left _ _)

theorem Nested.withLimits (h : atom.Nested source) (value : Bool) (place : Span) :
    (atom.withLimits value place).Nested source :=
  .of_slots fun slot (hslot : slot ∈ atom.slots) inner hinner =>
    (h.fits hslot inner hinner).mono (Span.inside_cover_left atom.span place)

theorem Fits.slots (h : atom.Fits source span) {slot : Formula} (hslot : slot ∈ atom.slots) :
    ∀ inner ∈ slot, inner.Fits source span := by
  obtain ⟨hnested, hinside | ⟨offset, rfl, -⟩⟩ := h
  · exact fun inner hinner => (hnested.fits hslot inner hinner).mono hinside
  · -- A placeholder has nothing below it.
    simp [symbol, Atom.slots] at hslot

end Atom

namespace Formula

def Lies (source : String) (span : Span) (formula : Formula) : Prop :=
  ∀ atom ∈ formula, atom.Lies source span

def Fits (source : String) (span : Span) (formula : Formula) : Prop :=
  ∀ atom ∈ formula, atom.Fits source span

variable {formula : Formula}

theorem lies_cons {atom : Atom} :
    Lies source span (atom :: formula) ↔ atom.Lies source span ∧ formula.Lies source span :=
  List.forall_mem_cons

end Formula

theorem Atom.Lies.covering {atom : Atom} (hspan : atom.span = span)
    (h : ∀ slot ∈ atom.slots, Formula.Fits source span slot) : atom.Lies source span := by
  subst hspan
  exact ⟨.of_slots h, Nat.le_refl _, Nat.le_refl _⟩

theorem Atom.Lies.group {content : Formula} (h : content.Fits source span)
    (boundaries : Option Boundaries) :
    (Atom.group content boundaries span).Lies source span := by
  refine .covering rfl fun slot hslot => ?_
  obtain rfl : slot = content := by simpa [Atom.slots, Atom.group] using hslot
  exact h

theorem Formula.Lies.join {atoms : List Atom} {atom : Atom} {start : Nat}
    (h : Lies source ⟨low, stop⟩ atoms) (hatom : atom.Lies source ⟨start, stop⟩)
    (hlow : low ≤ start) : Lies source ⟨low, stop⟩ (atom :: atoms) :=
  lies_cons.mpr ⟨hatom.mono ⟨hlow, Nat.le_refl _⟩, h⟩

theorem Formula.HasRow.fits {formula row : Formula} (h : HasRow formula row)
    (hfits : formula.Fits source span) : row.Fits source span := by
  induction h with
  | self => exact hfits
  | deeper hatom hslot _ ih => exact ih ((hfits _ hatom).slots hslot)

/-! ## What is built lies where it is built -/

def Part.Covers (source : String) (span : Span) : Part → List Atom → Prop
  | .row, atoms => Formula.Lies source span atoms
  | .slot, atoms => Formula.Fits source span atoms

theorem Part.Covers.mono {part : Part} {atoms : List Atom} (h : part.Covers source span atoms)
    (houter : span.Inside outer) : part.Covers source outer atoms := by
  cases part with
  | row => exact fun atom hatom => (h atom hatom).mono houter
  | slot => exact fun atom hatom => (h atom hatom).mono houter

theorem Built.covers {part : Part} {atoms : List Atom} (h : Built source part low stop atoms) :
    part.Covers source ⟨low, stop⟩ atoms := by
  induction h with
  | nil => exact nofun
  | wider _ hlow hstop ih => exact ih.mono ⟨hlow, hstop⟩
  | slot _ ih => exact fun atom hatom => (ih atom (List.mem_reverse.mp hatom)).fits
  | missing hlow hblank =>
      exact List.forall_mem_singleton.mpr
        ⟨Atom.nested_symbol .., .inr ⟨_, rfl, hlow, hblank⟩⟩
  | character _ hlow _ ih =>
      exact Formula.Lies.join ih ⟨Atom.nested_symbol .., Nat.le_refl _, Nat.le_refl _⟩ hlow
  | command _ _ _ _ hlow _ harguments ih =>
      refine Formula.Lies.join ih (.covering rfl fun slot hslot => ?_) hlow
      exact harguments slot (by simpa [Atom.slots] using hslot)
  | group _ _ hlow _ hcontent ih => exact Formula.Lies.join ih (.group hcontent _) hlow
  | table _ _ hlow _ hcells ih =>
      refine Formula.Lies.join ih (.covering rfl fun slot hslot => ?_) hlow
      obtain ⟨row, hrow, hslot⟩ : ∃ row ∈ _, slot ∈ row := by simpa [Atom.slots] using hslot
      exact hcells row hrow slot hslot
  | script _ _ hlow _ hcontent ih =>
      obtain ⟨hatom, hearlier⟩ := Formula.lies_cons.mp ih
      refine Formula.lies_cons.mpr ⟨⟨hatom.nested.withScript _ hcontent, ?_⟩, hearlier⟩
      rw [Atom.span_withScript]
      exact hatom.inside.cover ⟨hlow, Nat.le_refl _⟩
  | scriptBase _ hlow hle hcontent =>
      -- The empty base stands where the mark starts.
      refine List.forall_mem_singleton.mpr
        ⟨(Atom.nested_symbol ..).withScript _ hcontent, ?_⟩
      rw [Atom.span_withScript]
      exact .cover ⟨hlow, hle⟩ ⟨hlow, Nat.le_refl _⟩
  | limits _ hlow _ ih =>
      obtain ⟨hatom, hearlier⟩ := Formula.lies_cons.mp ih
      refine Formula.lies_cons.mpr ⟨⟨hatom.nested.withLimits _ _, ?_⟩, hearlier⟩
      exact hatom.inside.cover ⟨hlow, Nat.le_refl _⟩

/-! ## Whole readings -/

namespace Formula

theorem spans_are_nested_but_for_placeholders (source : String) (options : ReadingOptions)
    (formula row : Formula) (atom : Atom) (h : read source options = .ok formula)
    (hbelow : HasRow formula row) (hatom : atom ∈ row) :
    ∀ slot ∈ atom.slots, ∀ below, HasRow slot below → ∀ inner ∈ below,
      inner.span.Inside atom.span ∨ inner.Trails source atom.span := by
  intro slot hslot below hdeeper inner hinner
  obtain ⟨stop, hbuilt⟩ := exists_built_of_read h
  have hnested := (hbelow.fits hbuilt.covers atom hatom).nested
  exact (hdeeper.fits (hnested.fits hslot) inner hinner).within

theorem superscript_trails :
    ∃ atom inner : Atom, read "x^ %y" { fillMissing := true } = .ok [atom] ∧
      atom.superscript = some [inner] ∧ inner.Trails "x^ %y" atom.span := by
  let inner : Atom := .symbol .placeholder "□" ⟨5, 5⟩
  let atom : Atom :=
    { kind := .ordinary, nucleus := "x", superscript := some [inner], span := ⟨0, 2⟩ }
  have hread : read "x^ %y" { fillMissing := true } = .ok [atom] := by decide +kernel
  refine ⟨atom, inner, hread, rfl, ?_⟩
  have hbelow := spans_are_nested_but_for_placeholders _ _ _ _ atom hread (.self _)
    List.mem_cons_self [inner] (by simp [atom, Atom.slots]) _ (.self _) inner List.mem_cons_self
  exact hbelow.resolve_left (by simp [inner, atom, Atom.symbol, Span.Inside])

theorem placeholder_outside_of_its_atom :
    ∃ formula : Formula, read "x^ " { fillMissing := true } = .ok formula ∧
      ∃ atom ∈ formula, ∃ slot ∈ atom.slots, ∃ inner ∈ slot, ¬ inner.span.Inside atom.span := by
  let inner : Atom := .symbol .placeholder "□" ⟨3, 3⟩
  let atom : Atom :=
    { kind := .ordinary, nucleus := "x", superscript := some [inner], span := ⟨0, 2⟩ }
  have hread : read "x^ " { fillMissing := true } = .ok [atom] := by decide +kernel
  exact ⟨_, hread, atom, List.mem_cons_self, [inner], by simp [atom, Atom.slots], inner,
    List.mem_cons_self, by simp [inner, atom, Atom.symbol, Span.Inside]⟩

end Formula

end TexMath
