import TexMath.Proofs.Grammar.Basic

/-!
# A row step by step

A row can be formed one nucleus, limits command or script at a time.  `Step` changes the atoms of
the row so far, of which the latest comes first, and `Steps` makes several changes.  Every row is
formed in steps, and what is formed in steps is a row.
-/

namespace TexMath.Grammar

variable {inIndex : Bool}

inductive Step (inIndex : Bool) : List Atom → List Lexeme → List Atom → Prop
  | nucleus {atoms : List Atom} {lexemes : List Lexeme} {atom : Atom} :
      Nucleus inIndex lexemes atom → Step inIndex atoms lexemes (atom :: atoms)
  | limits {atom : Atom} {atoms : List Atom} {usual value : Bool} {name : String}
      {lexeme : Lexeme} :
      atom.kind = .largeOperator usual → atom.hasScripts = false →
      lexeme.token = .command name → Command.find? name = some (.limits value) →
      Step inIndex (atom :: atoms) [lexeme] (atom.withLimits value lexeme.span :: atoms)
  | script {atom : Atom} {atoms : List Atom} {which : Script} {mark : Lexeme}
      {lexemes : List Lexeme} {content : Formula} :
      mark.token.script? = some which → atom.kind.acceptsScripts = true →
      atom.script which = none → Argument inIndex lexemes content →
      Step inIndex (atom :: atoms) (mark :: lexemes)
        (atom.withScript which content ⟨mark.span.start, Lexeme.endOf mark.span.stop lexemes⟩ ::
          atoms)
  | scriptBase {which : Script} {mark : Lexeme} {lexemes : List Lexeme} {content : Formula} :
      mark.token.script? = some which → Argument inIndex lexemes content →
      Step inIndex [] (mark :: lexemes)
        [(Atom.scriptBase mark.span.start).withScript which content
          ⟨mark.span.start, Lexeme.endOf mark.span.stop lexemes⟩]

inductive Steps (inIndex : Bool) : List Atom → List Lexeme → List Atom → Prop
  | nil {atoms : List Atom} : Steps inIndex atoms [] atoms
  | cons {atoms middle result : List Atom} {lexemes rest : List Lexeme} :
      Step inIndex atoms lexemes middle → Steps inIndex middle rest result →
      Steps inIndex atoms (lexemes ++ rest) result

/-! ## From a row to its steps -/

theorem Steps.append {atoms middle result : List Atom} {lexemes rest : List Lexeme}
    (h : Steps inIndex atoms lexemes middle) (hrest : Steps inIndex middle rest result) :
    Steps inIndex atoms (lexemes ++ rest) result := by
  induction h with
  | nil => exact hrest
  | cons step _ ih =>
      rw [List.append_assoc]
      exact .cons step (ih hrest)

theorem Limits.steps {atom operator : Atom} {lexemes : List Lexeme}
    (h : Limits atom lexemes operator) (atoms : List Atom) :
    Steps inIndex (atom :: atoms) lexemes (operator :: atoms) := by
  induction h with
  | nil atom => exact .nil
  | cons hkind hscripts htoken hfind _ ih =>
      exact .cons (.limits hkind hscripts htoken hfind) ih

theorem Scripts.steps {atom result : Atom} {lexemes : List Lexeme} :
    ∀ atoms : List Atom, Scripts inIndex atom lexemes result →
      Steps inIndex (atom :: atoms) lexemes (result :: atoms)
  | _, .nil _ => .nil
  | atoms, .cons hmark haccepts hfree hargument hrest =>
      .cons (.script hmark haccepts hfree hargument) (hrest.steps atoms)

theorem Items.steps {lexemes : List Lexeme} {formula : Formula} :
    ∀ atoms : List Atom, Items inIndex lexemes formula →
      Steps inIndex atoms lexemes (formula.reverse ++ atoms)
  | _, .nil => .nil
  | atoms, @Items.cons _ _ _ _ _ _ _ atom _ hnucleus hlimits hscripts hrest => by
      have first : Steps inIndex atoms _ (atom :: atoms) :=
        (Steps.cons (.nucleus hnucleus) (hlimits.steps atoms)).append (hscripts.steps atoms)
      have others := hrest.steps (atom :: atoms)
      simpa using first.append others

theorem Row.steps {lexemes : List Lexeme} {formula : Formula}
    (h : Row inIndex lexemes formula) : Steps inIndex [] lexemes formula.reverse := by
  cases h with
  | plain hitems => simpa using hitems.steps []
  | scripted hscripts hitems =>
      cases hscripts with
      | cons hmark haccepts hfree hargument hrest =>
          have first := Steps.cons (.scriptBase hmark hargument) (hrest.steps [])
          simpa using first.append (hitems.steps _)

/-! ## From steps to a row -/

/-- The lexemes bring the atoms of a row so far to the formula: first limits and scripts may follow
for the latest atom, then further items. -/
def Completes (inIndex : Bool) : List Atom → List Lexeme → Formula → Prop
  | [], lexemes, formula => Row inIndex lexemes formula
  | atom :: atoms, lexemes, formula =>
      ∃ limits scripts rest operator result items,
        lexemes = limits ++ scripts ++ rest ∧ Limits atom limits operator ∧
          Scripts inIndex operator scripts result ∧ Items inIndex rest items ∧
          formula = atoms.reverse ++ result :: items

theorem Completes.refl (atoms : List Atom) : Completes inIndex atoms [] atoms.reverse := by
  cases atoms with
  | nil => exact .plain .nil
  | cons atom atoms =>
      exact ⟨[], [], [], atom, atom, [], rfl, .nil atom, .nil atom, .nil, by simp⟩

theorem Limits.eq_nil {atom operator : Atom} {lexemes : List Lexeme}
    (h : Limits atom lexemes operator) (hscripts : atom.hasScripts = true) :
    lexemes = [] ∧ operator = atom := by
  cases h with
  | nil => exact ⟨rfl, rfl⟩
  | cons _ hnone =>
      rw [hscripts] at hnone
      cases hnone

theorem Step.completes {atoms middle : List Atom} {lexemes rest : List Lexeme}
    {formula : Formula} (step : Step inIndex atoms lexemes middle)
    (h : Completes inIndex middle rest formula) :
    Completes inIndex atoms (lexemes ++ rest) formula := by
  cases step with
  | nucleus hnucleus =>
      obtain ⟨limits, scripts, others, operator, result, items, rfl, hlimits, hscripts, hitems,
        rfl⟩ := h
      have item := Items.cons hnucleus hlimits hscripts hitems
      rw [List.append_assoc, List.append_assoc] at item
      rw [List.append_assoc]
      cases atoms with
      | nil => exact .plain item
      | cons earlier atoms =>
          exact ⟨[], [], _, earlier, earlier, _, rfl, .nil earlier, .nil earlier, item, by simp⟩
  | limits hkind hnone htoken hfind =>
      obtain ⟨limits, scripts, others, operator, result, items, rfl, hlimits, hscripts, hitems,
        rfl⟩ := h
      exact ⟨_ :: limits, scripts, others, operator, result, items, rfl,
        .cons hkind hnone htoken hfind hlimits, hscripts, hitems, rfl⟩
  | script hmark haccepts hfree hargument =>
      obtain ⟨limits, scripts, others, operator, result, items, rfl, hlimits, hscripts, hitems,
        rfl⟩ := h
      obtain ⟨rfl, rfl⟩ := hlimits.eq_nil (Atom.hasScripts_withScript ..)
      exact ⟨[], _, others, _, result, items, by simp, .nil _,
        .cons hmark haccepts hfree hargument hscripts, hitems, rfl⟩
  | scriptBase hmark hargument =>
      obtain ⟨limits, scripts, others, operator, result, items, rfl, hlimits, hscripts, hitems,
        rfl⟩ := h
      obtain ⟨rfl, rfl⟩ := hlimits.eq_nil (Atom.hasScripts_withScript ..)
      have first := Scripts.cons hmark rfl (Atom.script_scriptBase _ _) hargument hscripts
      simpa [Completes] using Row.scripted first hitems

theorem Steps.completes {atoms result : List Atom} {lexemes : List Lexeme}
    (h : Steps inIndex atoms lexemes result) : Completes inIndex atoms lexemes result.reverse := by
  induction h with
  | nil => exact .refl _
  | cons step _ ih => exact step.completes ih

theorem row_iff_steps {lexemes : List Lexeme} {formula : Formula} :
    Row inIndex lexemes formula ↔ Steps inIndex [] lexemes formula.reverse := by
  constructor
  · exact Row.steps
  · intro h
    simpa [Completes] using h.completes

end TexMath.Grammar
