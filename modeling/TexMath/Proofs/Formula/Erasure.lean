import TexMath.Atom.Equality
import TexMath.Proofs.Formula.Nesting

/-!
# Formulas without their spans

`Atom.erase` changes the spans and nothing else: erasing twice changes no more, and kinds, nuclei,
scripts and nesting stay as they are.
-/

namespace TexMath

namespace Formula

theorem erase_eq_map (formula : Formula) : erase formula = formula.map Atom.erase := by
  induction formula with
  | nil => simp [erase]
  | cons atom rest ih => simp [erase, ih]

theorem eraseAll_eq_map (formulas : List Formula) : eraseAll formulas = formulas.map erase := by
  induction formulas with
  | nil => simp [eraseAll]
  | cons formula rest ih => simp [eraseAll, ih]

theorem eraseScript_eq_map (script : Option Formula) : eraseScript script = script.map erase := by
  cases script <;> simp [eraseScript]

theorem eraseRows_eq_map (rows : List (List Formula)) :
    eraseRows rows = rows.map (·.map erase) := by
  induction rows with
  | nil => simp [eraseRows]
  | cons row rest ih => simp [eraseRows, eraseAll_eq_map, ih]

@[simp] theorem erase_nil : erase [] = [] := by simp [erase]

@[simp] theorem erase_cons (atom : Atom) (rest : Formula) :
    erase (atom :: rest) = atom.erase :: erase rest := by simp [erase]

theorem erase_eq_nil {formula : Formula} : erase formula = [] ↔ formula = [] := by
  simp [erase_eq_map]

end Formula

/-! ## Erasing twice -/

mutual

theorem Atom.erase_erase : ∀ atom : Atom, atom.erase.erase = atom.erase
  | ⟨_, _, arguments, superscript, subscript, _, rows, _⟩ => by
      simp only [Atom.erase, Formula.eraseAll_eraseAll arguments,
        Formula.eraseScript_eraseScript superscript, Formula.eraseScript_eraseScript subscript,
        Formula.eraseRows_eraseRows rows]

theorem Formula.erase_erase : ∀ formula : List Atom,
    Formula.erase (Formula.erase formula) = Formula.erase formula
  | [] => rfl
  | atom :: rest => by
      simp only [Formula.erase, Atom.erase_erase atom, Formula.erase_erase rest]

theorem Formula.eraseAll_eraseAll : ∀ formulas : List (List Atom),
    Formula.eraseAll (Formula.eraseAll formulas) = Formula.eraseAll formulas
  | [] => rfl
  | formula :: rest => by
      simp only [Formula.eraseAll, Formula.erase_erase formula, Formula.eraseAll_eraseAll rest]

theorem Formula.eraseScript_eraseScript : ∀ script : Option (List Atom),
    Formula.eraseScript (Formula.eraseScript script) = Formula.eraseScript script
  | none => rfl
  | some formula => by simp only [Formula.eraseScript, Formula.erase_erase formula]

theorem Formula.eraseRows_eraseRows : ∀ rows : List (List (List Atom)),
    Formula.eraseRows (Formula.eraseRows rows) = Formula.eraseRows rows
  | [] => rfl
  | row :: rest => by
      simp only [Formula.eraseRows, Formula.eraseAll_eraseAll row, Formula.eraseRows_eraseRows rest]

end

/-! ## Nesting -/

mutual

theorem Atom.nest_erase : ∀ atom : Atom, atom.erase.nest = atom.nest
  | ⟨_, _, arguments, superscript, subscript, _, rows, _⟩ => by
      simp only [Atom.erase, Atom.nest, Formula.nestAll_eraseAll arguments,
        Formula.nestScript_eraseScript superscript, Formula.nestScript_eraseScript subscript,
        Formula.nestRows_eraseRows rows]

theorem Formula.nest_erase : ∀ formula : List Atom,
    Formula.nest (Formula.erase formula) = Formula.nest formula
  | [] => rfl
  | atom :: rest => by
      simp only [Formula.erase, Formula.nest, Atom.nest_erase atom, Formula.nest_erase rest]

theorem Formula.nestAll_eraseAll : ∀ formulas : List (List Atom),
    Formula.nestAll (Formula.eraseAll formulas) = Formula.nestAll formulas
  | [] => rfl
  | formula :: rest => by
      simp only [Formula.eraseAll, Formula.nestAll, Formula.nest_erase formula,
        Formula.nestAll_eraseAll rest]

theorem Formula.nestScript_eraseScript : ∀ script : Option (List Atom),
    Formula.nestScript (Formula.eraseScript script) = Formula.nestScript script
  | none => rfl
  | some formula => by
      simp only [Formula.eraseScript, Formula.nestScript, Formula.nest_erase formula]

theorem Formula.nestRows_eraseRows : ∀ rows : List (List (List Atom)),
    Formula.nestRows (Formula.eraseRows rows) = Formula.nestRows rows
  | [] => rfl
  | row :: rest => by
      simp only [Formula.eraseRows, Formula.nestRows, Formula.nestAll_eraseAll row,
        Formula.nestRows_eraseRows rest]

end

theorem Formula.nest_eq_of_erase {formula other : Formula}
    (h : Formula.erase formula = Formula.erase other) :
    Formula.nest formula = Formula.nest other := by
  rw [← Formula.nest_erase, h, Formula.nest_erase]

/-! ## What erasing keeps -/

namespace Atom

variable {atom other : Atom}

theorem erase_eq (atom : Atom) :
    atom.erase =
      { kind := atom.kind, nucleus := atom.nucleus, boundaries := atom.boundaries
        arguments := Formula.eraseAll atom.arguments
        superscript := Formula.eraseScript atom.superscript
        subscript := Formula.eraseScript atom.subscript
        rows := Formula.eraseRows atom.rows } := by
  cases atom
  simp [erase]

theorem script_erase (atom : Atom) (which : Script) :
    atom.erase.script which = (atom.script which).map Formula.erase := by
  cases which <;> simp [erase_eq, script, Formula.eraseScript_eq_map]

theorem kind_of_erase (h : atom.erase = other.erase) : atom.kind = other.kind := by
  have hkind := congrArg Atom.kind h
  simpa [erase_eq] using hkind

theorem script_eq_none_of_erase (h : atom.erase = other.erase) {which : Script}
    (hnone : other.script which = none) : atom.script which = none := by
  have hscript := congrArg (Atom.script · which) h
  simpa [script_erase, hnone] using hscript

theorem hasScripts_erase (atom : Atom) : atom.erase.hasScripts = atom.hasScripts := by
  simp [hasScripts, erase_eq, Formula.eraseScript_eq_map]

theorem hasScripts_of_erase (h : atom.erase = other.erase)
    (hnone : other.hasScripts = false) : atom.hasScripts = false := by
  rw [← hasScripts_erase, h, hasScripts_erase, hnone]

theorem erase_scriptBase (offset other : Nat) :
    (scriptBase offset).erase = (scriptBase other).erase := rfl

theorem erase_withScript (h : atom.erase = other.erase) (which : Script) {content rest : Formula}
    (hcontent : Formula.erase content = Formula.erase rest) (place elsewhere : Span) :
    (atom.withScript which content place).erase =
      (other.withScript which rest elsewhere).erase := by
  simp only [erase_eq, mk.injEq] at h
  cases which <;>
    simp only [withScript, setScript, erase_eq, Formula.eraseScript, h, hcontent]

theorem erase_withLimits (h : atom.erase = other.erase) (value : Bool) (place elsewhere : Span) :
    (atom.withLimits value place).erase = (other.withLimits value elsewhere).erase := by
  simp only [erase_eq, mk.injEq] at h
  simp only [withLimits, erase_eq, h]

end Atom

end TexMath
