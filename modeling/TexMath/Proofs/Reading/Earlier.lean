import TexMath.Proofs.Reading.Outcome
import TexMath.Proofs.Reading.Rules
import TexMath.Proofs.Symbol.Command

/-!
# The earlier atoms of a row

The rules of a row look at its latest atom at most.  So once a row has an atom of its own, atoms
that stand in front of it stay as they are, and nothing else depends on them.
-/

namespace TexMath

variable {α : Type} {context : Context} {atoms earlier : List Atom} {s t : State}

/-- What begins with the token is one more atom of a row, whatever the row has already. -/
def Token.addsAtom : Token → Bool
  | .character _ | .bracketOpen | .bracketClose | .braceOpen | .environmentBegin _ => true
  | .command name => !Context.directives.contains name
  | _ => false

theorem Context.not_closes_of_addsAtom (hgroups : context.groups = []) {token : Token}
    (h : token.addsAtom = true) : context.closes token = false := by
  cases token with
  | command name => simp [closes, hgroups]
  | character _ | braceOpen | bracketOpen | environmentBegin _ => rfl
  | bracketClose => simp [closes, hgroups]
  | _ => cases h

namespace Reading

/-- The second reading takes the same steps as the first and gives what the function makes of the
atoms that the first gives, of which there are some. -/
def Extends (extend : List Atom → List Atom) (read read' : Reading (List Atom)) : Prop :=
  ∀ s, match read s with
    | .ok atoms t => atoms ≠ [] ∧ read' s = .ok (extend atoms) t
    | .error error t => read' s = .error error t

namespace Extends

variable {extend extend' : List Atom → List Atom} {read read' other other' : Reading (List Atom)}

theorem pure (h : atoms ≠ []) : Extends extend (pure atoms) (pure (extend atoms)) :=
  fun _ => ⟨h, rfl⟩

theorem bind (read : Reading α) {next next' : α → Reading (List Atom)}
    (hnext : ∀ a, Extends extend (next a) (next' a)) :
    Extends extend (read >>= next) (read >>= next') := by
  intro s
  cases hread : read s with
  | ok a t =>
      rw [bind_of_ok hread, bind_of_ok hread]
      exact hnext a t
  | error error t =>
      rw [bind_of_error hread, bind_of_error hread]

theorem seq (h : Extends extend read read') {next next' : List Atom → Reading (List Atom)}
    (hnext : ∀ atoms, atoms ≠ [] → Extends extend' (next atoms) (next' (extend atoms))) :
    Extends extend' (read >>= next) (read' >>= next') := by
  intro s
  have hfirst := h s
  cases hread : read s with
  | ok atoms t =>
      rw [hread] at hfirst
      rw [bind_of_ok hread, bind_of_ok hfirst.2]
      exact hnext atoms hfirst.1 t
  | error error t =>
      rw [hread] at hfirst
      rw [bind_of_error hread, bind_of_error hfirst]

theorem ite {condition : Prop} [Decidable condition] (h : Extends extend read read')
    (hother : Extends extend other other') :
    Extends extend (if condition then read else other) (if condition then read' else other') := by
  split
  · exact h
  · exact hother

theorem of_ok (h : Extends extend read read') (hread : read s = .ok atoms t) :
    atoms ≠ [] ∧ read' s = .ok (extend atoms) t := by
  have hs := h s
  rwa [hread] at hs

theorem of_error (h : Extends extend read read') {error : ParseError}
    (hread : read s = .error error t) : read' s = .error error t := by
  have hs := h s
  rwa [hread] at hs

theorem exists_of_ok (h : Extends extend read read') (hread : read' s = .ok atoms t) :
    ∃ own, own ≠ [] ∧ atoms = extend own := by
  cases hown : read s with
  | ok own t' =>
      obtain ⟨hne, hextended⟩ := h.of_ok hown
      rw [hread] at hextended
      cases hextended
      exact ⟨own, hne, rfl⟩
  | error error t' =>
      have herror := h.of_error hown
      rw [hread] at herror
      cases herror

end Extends

end Reading

namespace Readers

open Reading

variable (readers : Readers) (context) (earlier)

theorem extends_cons (read : Reading Atom) (atoms : List Atom) :
    Extends (· ++ earlier) (read >>= fun atom => pure (atom :: atoms))
      (read >>= fun atom => pure (atom :: (atoms ++ earlier))) :=
  .bind read fun atom => .pure (List.cons_ne_nil atom atoms)

theorem extends_script (which : Script) (mark : Span) (h : atoms ≠ []) :
    Extends (· ++ earlier) (readers.script context which mark atoms)
      (readers.script context which mark (atoms ++ earlier)) := by
  obtain ⟨atom, others, rfl⟩ := List.exists_cons_of_ne_nil h
  refine .bind _ fun next => ?_
  cases next.token.script? with
  | some following => exact .bind _ fun _ => .pure h
  | none => exact extends_cons earlier (readers.scripted context which mark atom) others

theorem extends_setLimits (value : Bool) (span : Span) (h : atoms ≠ []) :
    Extends (· ++ earlier) (Readers.setLimits context value span atoms)
      (Readers.setLimits context value span (atoms ++ earlier)) := by
  obtain ⟨atom, others, rfl⟩ := List.exists_cons_of_ne_nil h
  rw [List.cons_append]
  by_cases htakes : ∃ usual, atom.kind = .largeOperator usual ∧ atom.hasScripts = false
  · obtain ⟨usual, hkind, hscripts⟩ := htakes
    intro s
    rw [setLimits_of_kind hkind hscripts, setLimits_of_kind hkind hscripts]
    exact ⟨List.cons_ne_nil _ _, rfl⟩
  · rw [setLimits_of_not htakes, setLimits_of_not htakes]
    exact .bind _ fun _ => .pure h

theorem extends_command {name : String} (span : Span)
    (h : atoms ≠ [] ∨ (Token.command name).addsAtom = true) :
    Extends (· ++ earlier) (readers.command context name span atoms)
      (readers.command context name span (atoms ++ earlier)) := by
  -- A command that adds no atom is one of those that the token excludes.
  have hatoms : name ∈ Context.directives → atoms ≠ [] := by
    intro hdirective
    have hnone : (Token.command name).addsAtom = false :=
      congrArg not (List.contains_iff_mem.mpr hdirective)
    exact h.resolve_right (by rw [hnone]; exact Bool.false_ne_true)
  unfold Readers.command
  cases hfind : Command.find? name with
  | none => exact .bind _ fun _ => .pure (List.cons_ne_nil _ _)
  | some command =>
      cases command with
      | atom template =>
          exact extends_cons earlier (readers.structured context template name span) atoms
      | left => exact extends_cons earlier (readers.fenced context span) atoms
      | limits value =>
          refine extends_setLimits context earlier value span (hatoms ?_)
          rcases Command.eq_limits_of_find? hfind with rfl | rfl <;> decide
      | right =>
          obtain rfl := Command.eq_right_of_find? hfind
          exact .bind _ fun _ => .pure (hatoms (by decide))
      | newRow =>
          obtain rfl := Command.eq_newRow_of_find? hfind
          exact .bind _ fun _ => .pure (hatoms (by decide))

theorem extends_lexemeStep {l : Lexeme} (h : atoms ≠ [] ∨ l.token.addsAtom = true) :
    Extends (· ++ earlier) (readers.lexemeStep context l atoms)
      (readers.lexemeStep context l (atoms ++ earlier)) := by
  have hkept : l.token.addsAtom = false → atoms ≠ [] := fun hnone =>
    h.resolve_right (by simp [hnone])
  have hsymbol : ∀ kind nucleus, Extends (· ++ earlier)
      (pure (.symbol kind nucleus l.span :: atoms))
      (pure (.symbol kind nucleus l.span :: (atoms ++ earlier))) :=
    fun kind nucleus => .pure (List.cons_ne_nil _ atoms)
  unfold Readers.lexemeStep
  cases htoken : l.token with
  | character c =>
      dsimp only
      cases Literal.kind? c with
      | some kind => exact hsymbol kind _
      | none => exact .bind _ fun _ => hsymbol _ _
  | bracketOpen => exact hsymbol _ _
  | bracketClose => exact hsymbol _ _
  | braceOpen =>
      refine .bind _ fun content => .bind _ fun stop => ?_
      exact .pure (List.cons_ne_nil _ atoms)
  | environmentBegin environment =>
      exact extends_cons earlier (readers.table context environment l.span) atoms
  | command name => exact extends_command context earlier readers l.span (htoken ▸ h)
  | superscriptMark =>
      exact extends_script context earlier readers .superscript l.span (hkept (by rw [htoken]; rfl))
  | subscriptMark =>
      exact extends_script context earlier readers .subscript l.span (hkept (by rw [htoken]; rfl))
  | braceClose => exact .bind _ fun _ => .pure (hkept (by rw [htoken]; rfl))
  | environmentEnd _ => exact .bind _ fun _ => .pure (hkept (by rw [htoken]; rfl))
  | columnMark => exact .bind _ fun _ => .pure (hkept (by rw [htoken]; rfl))
  | blank => exact .pure (hkept (by rw [htoken]; rfl))
  | comment => exact .pure (hkept (by rw [htoken]; rfl))
  | sourceEnd => exact .pure (hkept (by rw [htoken]; rfl))

variable {readers}

theorem extends_rowStep
    (hrow : ∀ atoms, atoms ≠ [] → Extends (earlier.reverse ++ ·) (readers.row context atoms)
      (readers.row context (atoms ++ earlier))) (h : atoms ≠ []) :
    Extends (earlier.reverse ++ ·) (readers.rowStep context atoms)
      (readers.rowStep context (atoms ++ earlier)) := by
  refine .bind _ fun next => .ite ?_ (.bind _ fun _ => ?_)
  · rw [List.reverse_append]
    exact .pure (by simpa using h)
  · exact (extends_lexemeStep context earlier readers (.inl h)).seq hrow

theorem extends_row (bound : Nat) :
    ∀ atoms, atoms ≠ [] → Extends (earlier.reverse ++ ·) ((upTo bound).row context atoms)
      ((upTo bound).row context (atoms ++ earlier)) := by
  induction bound with
  | zero =>
      intro atoms h
      have hreverse : atoms.reverse ≠ [] := by simpa using h
      change Extends _ (pure atoms.reverse) (pure (atoms ++ earlier).reverse)
      rw [List.reverse_append]
      exact .pure hreverse
  | succ bound ih => exact fun atoms => extends_rowStep context earlier ih

theorem extends_formula (formula : Formula) {l : Lexeme} (h : l.token.addsAtom = true)
    (bound : Nat) :
    Extends (formula ++ ·)
      ((upTo bound).lexemeStep context l [] >>= (upTo bound).row context)
      ((upTo bound).lexemeStep context l formula.reverse >>= (upTo bound).row context) := by
  have hlexeme : Extends (· ++ formula.reverse) ((upTo bound).lexemeStep context l [])
      ((upTo bound).lexemeStep context l formula.reverse) :=
    extends_lexemeStep context formula.reverse (upTo bound) (.inr h)
  have hrow := extends_row context formula.reverse bound
  rw [List.reverse_reverse] at hrow
  exact hlexeme.seq hrow

end Readers

end TexMath
