import TexMath.Proofs.Formula.Text
import TexMath.Proofs.Reading.Exhaustion
import TexMath.Proofs.Reading.Lockstep
import TexMath.Proofs.Reading.Respelling
import TexMath.Proofs.Reading.Spacing

/-!
# Alternative names mean the same

Two sources without faults whose tokens differ at most in alternative names are read as formulas
that differ in spans alone.
-/

namespace TexMath

open Reading

/-! ## Readings of the same tokens -/

namespace Pairing

def SameWords (item item' : Item) : Prop :=
  ∃ l l' : Lexeme, item = .lexeme l ∧ item' = .lexeme l' ∧ l.token.canonical = l'.token.canonical

/-- Two readings that end at the first error, of the same words in two sources. -/
def unplaced : Pairing where
  contexts _ c c' := c.mode = .firstError ∧ ∃ size, c' = { c with sourceEnd := size }
  lexemes l l' := l.token.canonical = l'.token.canonical
  spans _ _ := True
  contents f f' := Formula.erase f = Formula.erase f'
  states s s' := List.Forall₂ SameWords s.rest s'.rest
  stopped _ _ _ _ := True

variable {context : Context} {size : Nat} {s s' : State}

theorem unplaced_report (first : context.mode = .firstError) (error error' : ParseError) :
    unplaced.Outcomes (fun _ _ => unplaced.states) (context.report error s)
      (({ context with sourceEnd := size } : Context).report error' s') := by
  simp only [Context.report, first]
  trivial

theorem splitFaults_of_sameWords {items items' : List Item}
    (h : List.Forall₂ SameWords items items') :
    (splitFaults items).1 = [] ∧ (splitFaults items').1 = [] := by
  cases h with
  | nil => exact ⟨rfl, rfl⟩
  | cons hfirst _ =>
      obtain ⟨l, l', rfl, rfl, -⟩ := hfirst
      exact ⟨rfl, rfl⟩

theorem unplaced_peek (h : unplaced.states s s') :
    unplaced.Outcomes (fun next next' t t' => unplaced.lexemes next next' ∧ unplaced.states t t')
      (context.peek s) (({ context with sourceEnd := size } : Context).peek s') := by
  obtain ⟨hclear, hclear'⟩ := splitFaults_of_sameWords h
  rw [context.peek_of_nil hclear, Context.peek_of_nil _ hclear']
  refine ⟨?_, h⟩
  change List.Forall₂ SameWords s.rest s'.rest at h
  generalize s.rest = items at h
  generalize s'.rest = items' at h
  cases h with
  | nil => rfl
  | cons hfirst _ =>
      obtain ⟨l, l', rfl, rfl, hsame⟩ := hfirst
      exact hsame

theorem unplaced_missingArgument (first : context.mode = .firstError) (command : String)
    (next next' : Span) (h : unplaced.states s s') :
    unplaced.Outcomes (fun f f' t t' => unplaced.contents f f' ∧ unplaced.states t t')
      (Readers.missingArgument context command next s)
      (Readers.missingArgument { context with sourceEnd := size } command next' s') := by
  unfold Readers.missingArgument
  split
  · exact ⟨by simp [unplaced, Atom.symbol, Atom.erase_eq], h⟩
  · simp only [Context.report, first]
    trivial

theorem unplaced_lawful : unplaced.Lawful where
  token := id
  groups := by
    rintro _ _ _ ⟨-, -, rfl⟩
    rfl
  fewer h := h
  room := by
    rintro _ _ _ ⟨-, -, rfl⟩
    exact Iff.rfl
  deeper := by
    rintro _ _ _ groups ⟨first, size, rfl⟩ -
    exact ⟨first, size, rfl⟩
  tooDeep _ _ _ _ := trivial
  lexemeSpan _ := trivial
  pointSpan _ := trivial
  stops _ _ _ _ := trivial
  cover _ _ := trivial
  contents := erase_eq_of_rows fun _ _ => id
  report := by
    rintro _ _ _ _ _ _ _ _ ⟨first, size, rfl⟩ - - -
    exact unplaced_report first _ _
  invalidDelimiter := by
    rintro _ _ _ _ _ _ _ ⟨first, size, rfl⟩ - - -
    exact unplaced_report first _ _
  peek := by
    rintro _ _ _ _ _ ⟨-, size, rfl⟩ hs
    exact unplaced_peek hs
  advance _ hs hrest hrest' := by
    change List.Forall₂ SameWords _ _ at hs ⊢
    rw [hrest, hrest'] at hs
    simpa [State.advanced, hrest, hrest'] using (List.forall₂_cons.mp hs).2
  missingArgument := by
    rintro _ _ _ _ _ _ _ _ ⟨first, size, rfl⟩ - - hs
    exact unplaced_missingArgument first _ _ _ hs

end Pairing

theorem sameWords_of_canonical {lexemes lexemes' : List Lexeme}
    (h : (lexemes.map Lexeme.token).map Token.canonical =
      (lexemes'.map Lexeme.token).map Token.canonical) :
    List.Forall₂ Pairing.SameWords (lexemes.map Item.lexeme) (lexemes'.map Item.lexeme) := by
  induction lexemes generalizing lexemes' with
  | nil =>
      obtain rfl : lexemes' = [] := by simpa using h.symm
      exact .nil
  | cons lexeme lexemes ih =>
      cases lexemes' with
      | nil => cases h
      | cons lexeme' lexemes' =>
          obtain ⟨hfirst, hrest⟩ := List.cons.inj h
          exact .cons ⟨_, _, rfl, rfl, hfirst⟩ (ih hrest)

namespace Formula

variable {source source' : String} {options : ReadingOptions} {formula : Formula}

theorem read_of_canonical {lexemes lexemes' : List Lexeme}
    (hitems : significantItems source = lexemes.map .lexeme)
    (hitems' : significantItems source' = lexemes'.map .lexeme)
    (hsame : (lexemes.map Lexeme.token).map Token.canonical =
      (lexemes'.map Lexeme.token).map Token.canonical)
    (h : read source options = .ok formula) :
    ∃ formula', read source' options = .ok formula' ∧ formula'.alike formula = true := by
  obtain ⟨t, hrun⟩ := readUntilError_eq_ok.mp (read_eq_ok_iff.mp h)
  have hwords := sameWords_of_canonical hsame
  rw [← hitems, ← hitems'] at hwords
  have hlength := hwords.length_eq
  obtain ⟨bound, hbound⟩ : ∃ bound, bound = (significantItems source).length + 1 := ⟨_, rfl⟩
  rw [runReading_eq_root _ _ (by omega : _ < bound)] at hrun
  let start : State := { rest := significantItems source }
  have paired := Pairing.paired_iterate Pairing.unplaced_lawful bound .idle .idle
  rw [← Readers.upTo_eq_iterate] at paired
  have hcontexts : Pairing.unplaced.contexts bound (.ofSource .firstError options source)
      (.ofSource .firstError options source') := ⟨rfl, source'.utf8ByteSize, rfl⟩
  have hwithin : Pairing.unplaced.Within bound start { rest := significantItems source' } :=
    ⟨hwords, hbound ▸ Nat.lt_succ_of_le start.ahead_le_length⟩
  have houtcomes := paired.root hcontexts rfl
    (fun _ _ _ _ => Pairing.unplaced_report rfl _ _) _ _ hwithin
  rw [hrun] at houtcomes
  obtain ⟨formula', t', hrun', hrows, -⟩ := houtcomes.of_ok
  rw [← runReading_eq_root _ _ (by omega : _ < bound)] at hrun'
  exact ⟨formula', read_eq_ok_iff.mpr (readUntilError_eq_ok.mpr ⟨t', hrun'⟩),
    (alike_iff _ _).mpr (Pairing.erase_eq_of_rows (fun _ _ => id) hrows).symm⟩

theorem read_respelled (chosen : Nat → Bool) (h : read source options = .ok formula) :
    tokens (respell chosen source) =
        (significantItems source).filterMap (Item.respelled? chosen) ∧
      ∃ formula', read (respell chosen source) options = .ok formula' ∧
        formula'.alike formula = true ∧ formula'.text = formula.text := by
  have hclear := notMem_items_of_read h
  have hscans := scans_respelled chosen hclear
  refine ⟨hscans.tokens_eq, ?_⟩
  obtain ⟨lexemes, hitems⟩ := significantItems_eq_lexemes_iff.mpr hclear
  obtain ⟨lexemes', hitems', htokens⟩ := hscans
  have hsame : (lexemes.map Lexeme.token).map Token.canonical =
      (lexemes'.map Lexeme.token).map Token.canonical := by
    rw [htokens, hitems, map_canonical_respelled]
  obtain ⟨formula', hread, halike⟩ := read_of_canonical hitems hitems' hsame h
  exact ⟨formula', hread, halike, text_eq_of_alike halike⟩

theorem fence_respelled :
    let source := "\\left\\lbrace a\\le b\\right\\Vert"
    respell (fun _ => true) source = "\\left\\\x7b a\\leq b\\right\\|" ∧
      ∃ formula, read source {} = .ok formula ∧
        tokens (respell (fun _ => true) source) =
            (significantItems source).filterMap (Item.respelled? fun _ => true) ∧
          ∃ formula', read (respell (fun _ => true) source) {} = .ok formula' ∧
            formula'.alike formula = true ∧ formula'.text = formula.text := by
  intro source
  refine ⟨by decide +kernel, ?_⟩
  have hok : (read source {}).isOk = true := by decide +kernel
  cases hread : read source {} with
  | ok formula => exact ⟨formula, rfl, read_respelled (fun _ => true) hread⟩
  | error error => simp [hread, Except.isOk, Except.toBool] at hok

end Formula

end TexMath
