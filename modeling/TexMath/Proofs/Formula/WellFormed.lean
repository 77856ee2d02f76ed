import TexMath.Proofs.Formula.Nesting
import TexMath.Proofs.Symbol.Literal
import TexMath.Symbol.Delimiter

/-!
# Well-formed formulas

What a formula has to be for some source to stand for it.  `Atom.Admissible` collects the conditions
on a single atom, and a formula is well formed when its atoms are admissible at every depth and an
empty atom stands only at the start of a row, where it carries scripts.
-/

namespace TexMath

theorem Environment.eq_of_name_eq {environment other : Environment}
    (h : environment.name = other.name) : environment = other := by
  have hfound := ofName?_name environment
  rwa [h, ofName?_name, Option.some.injEq, eq_comm] at hfound

def Delimiter.IsGlyph (glyph : String) : Prop := ∃ token, glyph? token = some glyph

namespace Atom

/-- The kind and the nucleus are those of something that can be written: a literal character, a
command, whatever the limits of a large operator, a group or an environment. -/
inductive Produced : AtomKind → String → Prop
  | character {c : Char} {kind : AtomKind} :
      Literal.kind? c = some kind → Produced kind (Literal.nucleus c)
  | command {name : String} {template : Template} {kind : AtomKind} :
      Command.find? name = some (.atom template) → template.kind.family = kind.family →
      Produced kind template.nucleus
  | group : Produced .inner ""
  | environment (environment : Environment) : Produced .table environment.name

theorem Produced.largeOperator {usual : Bool} {nucleus : String}
    (h : Produced (.largeOperator usual) nucleus) (value : Bool) :
    Produced (.largeOperator value) nucleus := by
  cases h with
  | character hkind => simpa using Literal.kind_mem_of_kind? hkind
  | command hfind hfamily => exact .command hfind hfamily

def IsScriptBase (atom : Atom) : Prop :=
  atom.kind = .ordinary ∧ atom.nucleus = "" ∧ atom.hasScripts = true

/-- The conditions on an atom that look neither below it nor beside it. -/
structure Admissible (atom : Atom) : Prop where
  symbol : Produced atom.kind atom.nucleus ∨ atom.IsScriptBase
  kind_ne : atom.kind ≠ .error
  le_arguments : atom.kind.argumentRange.1 ≤ atom.arguments.length
  arguments_le : atom.arguments.length ≤ atom.kind.argumentRange.2
  boundaries : ∀ fence ∈ atom.boundaries,
    atom.kind = .inner ∧ Delimiter.IsGlyph fence.left ∧ Delimiter.IsGlyph fence.right
  rows : atom.rows ≠ [] → atom.kind = .table
  cells : ∀ row ∈ atom.rows,
    row ≠ [] ∧ (atom.nucleus = Environment.gathered.name → row.length = 1)
  scripts : atom.hasScripts = true → atom.kind.acceptsScripts = true

end Atom

/-- Every atom, at every depth, is admissible, and only the first of a row may be an empty atom. -/
inductive Formula.WellFormed : Formula → Prop
  | intro {formula : Formula} :
      (∀ atom ∈ formula, atom.Admissible) →
      (∀ atom ∈ formula.tail, Atom.Produced atom.kind atom.nucleus) →
      (∀ atom ∈ formula, ∀ slot ∈ atom.slots, Formula.WellFormed slot) → Formula.WellFormed formula

theorem AtomKind.eq_of_family_eq {kind other : AtomKind} (h : kind.family = other.family)
    (hother : ∀ limits, other ≠ .largeOperator limits) : kind = other := by
  cases kind <;> cases other <;> simp_all [family]

theorem AtomKind.argumentRange_snd {kind : AtomKind} (h : kind ≠ .radical) :
    kind.argumentRange.2 = kind.argumentRange.1 := by
  cases kind <;> first | rfl | exact absurd rfl h

namespace Atom

/-! ## What the kind of an admissible atom rules out -/

theorem Produced.nucleus_of_inner {nucleus : String} (h : Produced .inner nucleus) :
    nucleus = "" := by
  generalize hkind : AtomKind.inner = kind at h
  cases h with
  | character hliteral =>
      subst hkind
      simpa using Literal.kind_mem_of_kind? hliteral
  | @command _ template _ hfind hfamily =>
      subst hkind
      exact absurd (AtomKind.eq_of_family_eq hfamily (by simp)) (Command.kind_ne_of_find? hfind).1
  | group => rfl
  | environment => cases hkind

theorem Produced.environment_of_table {nucleus : String} (h : Produced .table nucleus) :
    ∃ environment : Environment, environment.name = nucleus := by
  generalize hkind : AtomKind.table = kind at h
  cases h with
  | character hliteral =>
      subst hkind
      simpa using Literal.kind_mem_of_kind? hliteral
  | @command _ template _ hfind hfamily =>
      subst hkind
      exact absurd (AtomKind.eq_of_family_eq hfamily (by simp)) (Command.kind_ne_of_find? hfind).2.1
  | group => cases hkind
  | environment environment => exact ⟨environment, rfl⟩

namespace Admissible

variable {atom : Atom} (h : atom.Admissible)
include h

theorem arguments_eq_nil (hrange : atom.kind.argumentRange = (0, 0)) : atom.arguments = [] := by
  have hle := h.arguments_le
  rw [hrange] at hle
  exact List.length_eq_zero_iff.mp (Nat.le_zero.mp hle)

theorem boundaries_eq_none (hkind : atom.kind ≠ .inner) : atom.boundaries = none := by
  cases hboundaries : atom.boundaries with
  | none => rfl
  | some fence => exact absurd (h.boundaries fence hboundaries).1 hkind

theorem rows_eq_nil (hkind : atom.kind ≠ .table) : atom.rows = [] :=
  Decidable.byContradiction fun hne => hkind (h.rows hne)

end Admissible

end Atom

structure Atom.WellFormed (atom : Atom) : Prop where
  admissible : atom.Admissible
  slots : ∀ slot ∈ atom.slots, Formula.WellFormed slot

namespace Formula

theorem wellFormed_iff {formula : Formula} :
    WellFormed formula ↔ (∀ atom ∈ formula, atom.WellFormed) ∧
      ∀ atom ∈ formula.tail, Atom.Produced atom.kind atom.nucleus := by
  constructor
  · rintro ⟨hadmissible, htail, hslots⟩
    exact ⟨fun atom hatom => ⟨hadmissible atom hatom, hslots atom hatom⟩, htail⟩
  · rintro ⟨hatoms, htail⟩
    exact ⟨fun atom hatom => (hatoms atom hatom).admissible, htail,
      fun atom hatom => (hatoms atom hatom).slots⟩

theorem wellFormed_nil : WellFormed [] := ⟨by simp, by simp, by simp⟩

theorem wellFormed_singleton {atom : Atom} : WellFormed [atom] ↔ atom.WellFormed := by
  simp [wellFormed_iff]

theorem wellFormed_concat {formula : Formula} {atom : Atom} :
    WellFormed (formula ++ [atom]) ↔ WellFormed formula ∧ atom.WellFormed ∧
      (formula ≠ [] → Atom.Produced atom.kind atom.nucleus) := by
  simp only [wellFormed_iff, List.forall_mem_append, List.forall_mem_singleton]
  cases formula with
  | nil => simp
  | cons first rest => simp; grind

end Formula

/-! ## Making well-formed atoms -/

namespace Atom.WellFormed

theorem symbol {kind : AtomKind} {nucleus : String} (h : Produced kind nucleus)
    (hkind : kind ≠ .error) (hrange : kind.argumentRange = (0, 0)) (span : Span) :
    (Atom.symbol kind nucleus span).WellFormed where
  admissible := {
    symbol := .inl h
    kind_ne := hkind
    le_arguments := by simp [Atom.symbol, hrange]
    arguments_le := by simp [Atom.symbol]
    boundaries := by simp [Atom.symbol]
    rows := by simp [Atom.symbol]
    cells := by simp [Atom.symbol]
    scripts := by simp [Atom.symbol, hasScripts] }
  slots := by simp [Atom.symbol, Atom.slots]

theorem character {c : Char} {kind : AtomKind} (h : Literal.kind? c = some kind) (span : Span) :
    (Atom.symbol kind (Literal.nucleus c) span).WellFormed := by
  refine symbol (.character h) ?_ (Literal.argumentRange_of_kind? h) span
  rintro rfl
  simpa using Literal.kind_mem_of_kind? h

theorem command {name : String} {template : Template} {arguments : List Formula} {span : Span}
    (hfind : Command.find? name = some (.atom template))
    (hle : template.arguments ≤ arguments.length)
    (hge : arguments.length ≤ template.arguments + if template.optionalArgument then 1 else 0)
    (harguments : ∀ content ∈ arguments, Formula.WellFormed content) :
    Atom.WellFormed
      { kind := template.kind, nucleus := template.nucleus, arguments, span } where
  admissible := {
    symbol := .inl (.command hfind rfl)
    kind_ne := (Command.kind_ne_of_find? hfind).2.2
    le_arguments := by
      rw [← Command.arguments_of_find? hfind]
      exact hle
    arguments_le := Nat.le_trans hge (Command.arguments_le_of_find? hfind)
    boundaries := by simp
    rows := by simp
    cells := by simp
    scripts := by simp [hasScripts] }
  slots := by simpa [Atom.slots] using harguments

theorem group {content : Formula} {boundaries : Option Boundaries} (span : Span)
    (hcontent : Formula.WellFormed content)
    (hglyphs : ∀ fence ∈ boundaries, Delimiter.IsGlyph fence.left ∧ Delimiter.IsGlyph fence.right) :
    (Atom.group content boundaries span).WellFormed where
  admissible := {
    symbol := .inl .group
    kind_ne := nofun
    le_arguments := Nat.le_refl 1
    arguments_le := Nat.le_refl 1
    boundaries := fun fence hfence => ⟨rfl, hglyphs fence hfence⟩
    rows := by simp [Atom.group]
    cells := by simp [Atom.group]
    scripts := by simp [Atom.group, hasScripts] }
  slots := by simpa [Atom.group, Atom.slots] using hcontent

theorem table {environment : Environment} {rows : List (List Formula)} {span : Span}
    (hrows : ∀ row ∈ rows, row ≠ [] ∧ (environment = .gathered → row.length = 1))
    (hcells : ∀ row ∈ rows, ∀ cell ∈ row, Formula.WellFormed cell) :
    Atom.WellFormed { kind := .table, nucleus := environment.name, rows, span } where
  admissible := {
    symbol := .inl (.environment environment)
    kind_ne := nofun
    le_arguments := Nat.le_refl 0
    arguments_le := Nat.le_refl 0
    boundaries := by simp
    rows := fun _ => rfl
    cells := fun row hrow => ⟨(hrows row hrow).1, fun hname =>
      (hrows row hrow).2 (Environment.eq_of_name_eq hname)⟩
    scripts := by simp [hasScripts] }
  slots := by
    simp only [Atom.slots, List.nil_append, Option.toList_none, List.mem_flatten]
    rintro cell ⟨row, hrow, hcell⟩
    exact hcells row hrow cell hcell

theorem withLimits {atom : Atom} (h : atom.WellFormed) {usual : Bool}
    (hkind : atom.kind = .largeOperator usual) (value : Bool) (place : Span) :
    (atom.withLimits value place).WellFormed := by
  obtain ⟨kind, nucleus, arguments, superscript, subscript, boundaries, rows, span⟩ := atom
  subst hkind
  obtain ⟨⟨hsymbol, -, hle, hge, hfences, hrows, hcells, -⟩, hslots⟩ := h
  refine ⟨⟨?_, nofun, hle, hge, ?_, fun hne => ?_, hcells, fun _ => rfl⟩, hslots⟩
  · rcases hsymbol with hproduced | hbase
    · exact .inl (hproduced.largeOperator value)
    · cases hbase.1
  · intro fence hfence
    cases (hfences fence hfence).1
  · cases hrows hne

theorem withScript {atom : Atom} {content : Formula} (h : atom.WellFormed)
    (haccepts : atom.kind.acceptsScripts = true) (hcontent : Formula.WellFormed content)
    (which : Script) (place : Span) : (atom.withScript which content place).WellFormed where
  admissible := {
    symbol := by
      rcases h.admissible.symbol with hproduced | ⟨hkind, hnucleus, -⟩
      · exact .inl (by simpa using hproduced)
      · exact .inr ⟨by simpa using hkind, by simpa using hnucleus, by simp⟩
    kind_ne := by simpa using h.admissible.kind_ne
    le_arguments := by simpa using h.admissible.le_arguments
    arguments_le := by simpa using h.admissible.arguments_le
    boundaries := by simpa using h.admissible.boundaries
    rows := by simpa using h.admissible.rows
    cells := by simpa using h.admissible.cells
    scripts := by simpa using haccepts }
  slots := by
    intro slot hslot
    rcases eq_or_mem_slots_of_withScript atom which content place hslot with rfl | hslot
    · exact hcontent
    · exact h.slots slot hslot

theorem scriptBase {content : Formula} (hcontent : Formula.WellFormed content) (offset : Nat)
    (which : Script) (place : Span) :
    ((Atom.scriptBase offset).withScript which content place).WellFormed where
  admissible := {
    symbol := .inr ⟨by simp [Atom.scriptBase, Atom.symbol], by simp [Atom.scriptBase, Atom.symbol],
      by simp⟩
    kind_ne := by simp [Atom.scriptBase, Atom.symbol]
    le_arguments := by simp [Atom.scriptBase, Atom.symbol, AtomKind.argumentRange]
    arguments_le := by simp [Atom.scriptBase, Atom.symbol]
    boundaries := by simp [Atom.scriptBase, Atom.symbol]
    rows := by simp [Atom.scriptBase, Atom.symbol]
    cells := by simp [Atom.scriptBase, Atom.symbol]
    scripts := by simp [Atom.scriptBase, Atom.symbol, AtomKind.acceptsScripts] }
  slots := by
    intro slot hslot
    rcases eq_or_mem_slots_of_withScript _ which content place hslot with rfl | hslot
    · exact hcontent
    · simp [Atom.scriptBase, Atom.symbol, Atom.slots] at hslot

end Atom.WellFormed

end TexMath
