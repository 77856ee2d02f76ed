import TexMath.Proofs.Grammar.Basic
import TexMath.Reading.Grammar

/-!
# The rules of a reading, case by case

What each rule comes down to once it is known which token was taken and what its command stands
for.
-/

namespace TexMath.Readers

open Grammar

variable {readers : Readers} {context : Context} {lexeme : Lexeme} {s : State}

theorem structured_eq {template : Template} (name : String) (span : Span)
    (h : ¬(template.arguments = 0 ∧ ¬ template.optionalArgument)) :
    readers.structured context template name span =
      (if template.optionalArgument then readers.index? context else pure none) >>= fun index =>
        readers.arguments context ("\\" ++ name) template.arguments >>= fun arguments =>
          lastEnd >>= fun stop =>
            pure {
              kind := template.kind
              nucleus := template.nucleus
              arguments := arguments ++ index.toList
              span := ⟨span.start, stop⟩ } := by
  unfold Readers.structured
  rw [if_neg h]
  split <;> rfl

/-! ## What begins with a lexeme -/

theorem lexemeStep_command {name : String} {atoms : List Atom}
    (htoken : lexeme.token = .command name) :
    readers.lexemeStep context lexeme atoms = readers.command context name lexeme.span atoms := by
  unfold Readers.lexemeStep
  rw [htoken]

theorem command_atom {name : String} {template : Template} {span : Span} {atoms : List Atom}
    (hfind : Command.find? name = some (.atom template)) :
    readers.command context name span atoms =
      readers.structured context template name span >>= fun atom => pure (atom :: atoms) := by
  unfold Readers.command
  rw [hfind]

theorem command_left {name : String} {span : Span} {atoms : List Atom}
    (hfind : Command.find? name = some .left) :
    readers.command context name span atoms =
      readers.fenced context span >>= fun atom => pure (atom :: atoms) := by
  unfold Readers.command
  rw [hfind]

theorem command_limits {name : String} {value : Bool} {span : Span} {atoms : List Atom}
    (hfind : Command.find? name = some (.limits value)) :
    readers.command context name span atoms = Readers.setLimits context value span atoms := by
  unfold Readers.command
  rw [hfind]

theorem lexemeStep_mark {which : Script} {atoms : List Atom}
    (hmark : lexeme.token.script? = some which) :
    readers.lexemeStep context lexeme atoms = readers.script context which lexeme.span atoms := by
  unfold Readers.lexemeStep
  obtain ⟨token, span, text⟩ := lexeme
  cases token <;> cases hmark <;> rfl

/-! ## Scripts, limits and tables -/

theorem scriptProblem?_eq_none {atom : Atom} {which : Script} :
    scriptProblem? atom which = none ↔
      atom.kind.acceptsScripts = true ∧ atom.script which = none := by
  unfold scriptProblem?
  cases atom.kind.acceptsScripts <;> cases atom.script which <;> simp

theorem setLimits_of_kind {atom : Atom} {usual value : Bool} {place : Span} {atoms : List Atom}
    (hkind : atom.kind = .largeOperator usual) (hscripts : atom.hasScripts = false) :
    Readers.setLimits context value place (atom :: atoms) s =
      .ok (atom.withLimits value place :: atoms) s := by
  obtain ⟨kind, nucleus, arguments, superscript, subscript, boundaries, rows, span⟩ := atom
  simp only [Atom.hasScripts, Bool.or_eq_false_iff, Option.isSome_eq_false_iff,
    Option.isNone_iff_eq_none] at hkind hscripts
  obtain ⟨rfl, rfl⟩ := hscripts
  subst hkind
  rfl

theorem setLimits_of_not {atom : Atom} {value : Bool} {place : Span} {atoms : List Atom}
    (h : ¬∃ usual, atom.kind = .largeOperator usual ∧ atom.hasScripts = false) :
    Readers.setLimits context value place (atom :: atoms) =
      context.report ⟨.invalidLimits, place⟩ >>= fun _ => pure (atom :: atoms) := by
  unfold Readers.setLimits
  split
  · rename_i heq
    cases heq
    exact absurd ⟨_, rfl, rfl⟩ h
  · rfl

theorem closeGrid_of_ne (rows : List (List Formula)) {cells : List Formula} (h : cells ≠ [[]]) :
    closeGrid rows cells = (cells.reverse :: rows).reverse := by
  unfold closeGrid
  split
  · exact absurd rfl h
  · rfl

theorem closeGrid_eq (rows : List (List Formula)) (cells : List Formula) :
    closeGrid rows cells = dropEmptyRow (rows.reverse ++ [cells.reverse]) := by
  by_cases h : cells = [[]]
  · subst h
    exact (dropEmptyRow_concat rows.reverse).symm
  · have hreverse : cells.reverse ≠ [[]] := by simpa using h
    rw [dropEmptyRow_of_ne _ hreverse, closeGrid_of_ne rows h, List.reverse_cons]

end TexMath.Readers
