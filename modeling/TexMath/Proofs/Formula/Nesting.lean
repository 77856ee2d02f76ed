import TexMath.Proofs.Grammar.Basic
import TexMath.Proofs.Symbol.Command

/-!
# Nesting

`Formula.nest` counts how deep formulas are nested below a formula: an argument, a script or a cell
lies one level deeper than the atom it belongs to, and a table takes a level also if it has no rows.
-/

namespace TexMath

mutual

/-- How deep formulas are nested below the atoms of the formula. -/
def Formula.nest : List Atom → Nat
  | [] => 0
  | atom :: rest => max (Atom.nest atom) (Formula.nest rest)

def Atom.nest : Atom → Nat
  | ⟨kind, _, arguments, superscript, subscript, _, rows, _⟩ =>
      max (if kind = .table then 1 else 0)
        (max (Formula.nestAll arguments)
          (max (Formula.nestScript superscript)
            (max (Formula.nestScript subscript) (Formula.nestRows rows))))

def Formula.nestAll : List (List Atom) → Nat
  | [] => 0
  | formula :: rest => max (Formula.nest formula + 1) (Formula.nestAll rest)

def Formula.nestScript : Option (List Atom) → Nat
  | none => 0
  | some formula => Formula.nest formula + 1

def Formula.nestRows : List (List (List Atom)) → Nat
  | [] => 0
  | row :: rest => max (Formula.nestAll row) (Formula.nestRows rest)

end

namespace Formula

theorem nestAll_le_iff {formulas : List Formula} {bound : Nat} :
    nestAll formulas ≤ bound ↔ ∀ formula ∈ formulas, nest formula < bound := by
  induction formulas with
  | nil => simp [nestAll]
  | cons formula rest ih =>
      rw [nestAll, Nat.max_le, Nat.add_one_le_iff, ih, List.forall_mem_cons]

theorem nestScript_le_iff {script : Option Formula} {bound : Nat} :
    nestScript script ≤ bound ↔ ∀ formula ∈ script, nest formula < bound := by
  cases script with
  | none => simp [nestScript]
  | some formula =>
      rw [nestScript, Nat.add_one_le_iff]
      simp

theorem nestRows_le_iff {rows : List (List Formula)} {bound : Nat} :
    nestRows rows ≤ bound ↔ ∀ row ∈ rows, ∀ formula ∈ row, nest formula < bound := by
  induction rows with
  | nil => simp [nestRows]
  | cons row rest ih => simp [nestRows, ih, nestAll_le_iff]

theorem nest_le_iff {formula : Formula} {bound : Nat} :
    nest formula ≤ bound ↔ ∀ atom ∈ formula, atom.nest ≤ bound := by
  induction formula with
  | nil => simp [nest]
  | cons atom rest ih => simp [nest, ih]

@[simp] theorem nest_nil : nest [] = 0 := by simp [nest]

@[simp] theorem nest_cons (atom : Atom) (rest : Formula) :
    nest (atom :: rest) = max atom.nest (nest rest) := by simp [nest]

theorem nest_reverse (formula : Formula) : nest formula.reverse = nest formula := by
  apply Nat.le_antisymm
  · rw [nest_le_iff]
    intro atom hatom
    exact nest_le_iff.mp (Nat.le_refl _) atom (List.mem_reverse.mp hatom)
  · rw [nest_le_iff]
    intro atom hatom
    exact nest_le_iff.mp (Nat.le_refl _) atom (List.mem_reverse.mpr hatom)

end Formula

namespace Atom

theorem nest_le_iff {atom : Atom} {bound : Nat} :
    atom.nest ≤ bound ↔
      (atom.kind = .table → 0 < bound) ∧ ∀ slot ∈ atom.slots, Formula.nest slot < bound := by
  obtain ⟨kind, nucleus, arguments, superscript, subscript, boundaries, rows, span⟩ := atom
  have htable : (if kind = .table then 1 else 0) ≤ bound ↔ (kind = .table → 0 < bound) := by
    split <;> simp_all [Nat.lt_iff_add_one_le]
  simp only [nest, Nat.max_le, htable, Formula.nestAll_le_iff, Formula.nestScript_le_iff,
    Formula.nestRows_le_iff, slots, List.mem_append, Option.mem_toList, Option.mem_def,
    List.mem_flatten]
  grind

theorem nest_symbol {kind : AtomKind} (h : kind ≠ .table) (nucleus : String) (span : Span) :
    (symbol kind nucleus span).nest = 0 := by
  simp [symbol, nest, h, Formula.nestAll, Formula.nestScript, Formula.nestRows]

theorem nest_le_of_find? {name : String} {template : Template} {arguments : List Formula}
    {span : Span} {bound : Nat} (hfind : Command.find? name = some (.atom template))
    (h : ∀ content ∈ arguments, Formula.nest content < bound) :
    nest { kind := template.kind, nucleus := template.nucleus, arguments, span } ≤ bound := by
  refine nest_le_iff.mpr ⟨fun htable => absurd htable (Command.kind_ne_of_find? hfind).2.1, ?_⟩
  simpa [slots] using h

theorem nest_group_le {content : Formula} {boundaries : Option Boundaries} {span : Span}
    {bound : Nat} (h : Formula.nest content < bound) :
    (group content boundaries span).nest ≤ bound :=
  nest_le_iff.mpr ⟨nofun, by simpa [group, slots] using h⟩

theorem nest_table_le {nucleus : String} {rows : List (List Formula)} {span : Span} {bound : Nat}
    (hbound : 0 < bound) (h : ∀ row ∈ rows, ∀ cell ∈ row, Formula.nest cell < bound) :
    nest { kind := .table, nucleus, rows, span } ≤ bound := by
  refine nest_le_iff.mpr ⟨fun _ => hbound, fun slot hslot => ?_⟩
  simp only [slots, List.nil_append, Option.toList_none, List.mem_flatten] at hslot
  obtain ⟨row, hrow, hcell⟩ := hslot
  exact h row hrow slot hcell

theorem nest_withLimits {atom : Atom} {usual : Bool} (h : atom.kind = .largeOperator usual)
    (value : Bool) (place : Span) : (atom.withLimits value place).nest = atom.nest := by
  obtain ⟨kind, nucleus, arguments, superscript, subscript, boundaries, rows, span⟩ := atom
  subst h
  simp [withLimits, nest]

theorem nest_withScript {atom : Atom} {which : Script} (hfree : atom.script which = none)
    (content : Formula) (place : Span) :
    (atom.withScript which content place).nest = max atom.nest (Formula.nest content + 1) := by
  obtain ⟨kind, nucleus, arguments, superscript, subscript, boundaries, rows, span⟩ := atom
  cases which <;> simp only [script] at hfree <;> subst hfree <;>
    simp only [withScript, setScript, nest, Formula.nestScript] <;> omega

end Atom

/-! ## Formulas at every depth -/

/-- The row is the formula itself or lies below one of its atoms, at any depth. -/
inductive Formula.HasRow : Formula → Formula → Prop
  | self (formula : Formula) : HasRow formula formula
  | deeper {formula slot row : Formula} {atom : Atom} :
      atom ∈ formula → slot ∈ atom.slots → HasRow slot row → HasRow formula row

theorem Formula.HasRow.nest_le {formula row : Formula} (h : HasRow formula row) :
    nest row ≤ nest formula := by
  induction h with
  | self => exact Nat.le_refl _
  | deeper hatom hslot _ ih =>
      have hformula := nest_le_iff.mp (Nat.le_refl _) _ hatom
      have hbelow := (Atom.nest_le_iff.mp hformula).2 _ hslot
      omega

end TexMath
