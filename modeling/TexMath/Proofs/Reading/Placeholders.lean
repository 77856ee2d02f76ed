import TexMath.Atom.Equality
import TexMath.Proofs.Reading.Account
import TexMath.Proofs.Reading.Options

/-!
# Placeholders for missing arguments

A reading that fills in missing arguments goes through the items in step with one that does not.
What the two build differs in arguments and spans alone, which no rule asks for.  So their errors
differ in nothing but that some missing arguments are left out.
-/

namespace TexMath

variable {kept all more moreAll : List ParseError} {error : ParseError} {context : Context}
  {s s' : State}

/-! ## Errors left out -/

/-- The first errors are all of the second, in their order, but for some missing arguments. -/
inductive LeavesOut : List ParseError → List ParseError → Prop
  | nil : LeavesOut [] []
  | keep (error : ParseError) {kept all : List ParseError} :
      LeavesOut kept all → LeavesOut (error :: kept) (error :: all)
  | drop {error : ParseError} {command : String} {kept all : List ParseError} :
      error.cause = .missingArgument command → LeavesOut kept all → LeavesOut kept (error :: all)

theorem ParseError.insert_of_le {errors : List ParseError}
    (h : ∀ other ∈ errors, error.span.start ≤ other.span.start) :
    ParseError.insert error errors = error :: errors := by
  cases errors with
  | nil => rfl
  | cons first errors => exact if_pos (h first List.mem_cons_self)

namespace LeavesOut

theorem refl (errors : List ParseError) : LeavesOut errors errors := by
  induction errors with
  | nil => exact .nil
  | cons error errors ih => exact .keep error ih

theorem append (h : LeavesOut kept all) (hmore : LeavesOut more moreAll) :
    LeavesOut (kept ++ more) (all ++ moreAll) := by
  induction h with
  | nil => exact hmore
  | keep error _ ih => exact .keep error ih
  | drop hcause _ ih => exact .drop hcause ih

theorem reverse (h : LeavesOut kept all) : LeavesOut kept.reverse all.reverse := by
  induction h with
  | nil => exact .nil
  | keep error _ ih =>
      rw [List.reverse_cons, List.reverse_cons]
      exact ih.append (.refl [error])
  | drop hcause _ ih =>
      rw [List.reverse_cons, ← List.append_nil (List.reverse _)]
      exact ih.append (.drop hcause .nil)

theorem subset (h : LeavesOut kept all) : kept ⊆ all := by
  induction h with
  | nil => exact List.Subset.refl []
  | keep error _ ih => exact List.cons_subset_cons error ih
  | drop _ _ ih => exact List.subset_cons_of_subset _ ih

/-! ### Order -/

theorem insert_dropped {command : String} (hcause : error.cause = .missingArgument command)
    (h : LeavesOut kept all) : LeavesOut kept (ParseError.insert error all) := by
  induction h with
  | nil => exact .drop hcause .nil
  | keep first hrest ih =>
      unfold ParseError.insert
      split
      · exact .drop hcause (.keep first hrest)
      · exact .keep first ih
  | drop hfirst hrest ih =>
      unfold ParseError.insert
      split
      · exact .drop hcause (.drop hfirst hrest)
      · exact .drop hfirst ih

theorem insert_kept (error : ParseError) (h : LeavesOut kept all)
    (hsorted : all.Pairwise fun a b => a.span.start ≤ b.span.start) :
    LeavesOut (ParseError.insert error kept) (ParseError.insert error all) := by
  induction h with
  | nil => exact .keep error .nil
  | keep first hrest ih =>
      unfold ParseError.insert
      split
      · exact .keep error (.keep first hrest)
      · exact .keep first (ih (List.pairwise_cons.mp hsorted).2)
  | @drop first command kept all hfirst hrest ih =>
      obtain ⟨hall, hsorted⟩ := List.pairwise_cons.mp hsorted
      rw [ParseError.insert]
      split
      · -- What is kept starts no earlier than the error that is left out in front of it.
        rename_i hle
        rw [ParseError.insert_of_le fun other hother =>
          Nat.le_trans hle (hall other (hrest.subset hother))]
        exact .keep error (.drop hfirst hrest)
      · exact .drop hfirst (ih hsorted)

theorem byStart (h : LeavesOut kept all) :
    LeavesOut (ParseError.byStart kept) (ParseError.byStart all) := by
  induction h with
  | nil => exact .nil
  | keep error _ ih => exact ih.insert_kept error (ParseError.byStart_pairwise _)
  | drop hcause _ ih => exact ih.insert_dropped hcause

end LeavesOut

/-! ## The two readings -/

def Context.filling (context : Context) : Context :=
  { context with options := { context.options with fillMissing := true } }

namespace Pairing

def filling : Pairing where
  contexts _ c c' := c.mode = .collect ∧ c.options.fillMissing = false ∧ c' = c.filling
  lexemes := Eq
  spans _ _ := True
  contents _ _ := True
  states s s' := s'.rest = s.rest ∧ s'.lastEnd = s.lastEnd ∧ LeavesOut s'.reported s.reported
  stopped e s e' s' := e' = e ∧ LeavesOut s'.reported s.reported

theorem filling_report (hmode : context.mode = .collect) (error : ParseError)
    (h : filling.states s s') :
    filling.Outcomes (fun _ _ => filling.states) (context.report error s)
      (context.filling.report error s') := by
  have hmode' : context.filling.mode = .collect := hmode
  unfold Context.report
  rw [hmode, hmode']
  exact ⟨h.1, h.2.1, .keep error h.2.2⟩

theorem filling_peek (hmode : context.mode = .collect) (h : filling.states s s') :
    filling.Outcomes (fun next next' t t' => next = next' ∧ filling.states t t')
      (context.peek s) (context.filling.peek s') := by
  have hmode' : context.filling.mode = .collect := hmode
  rw [Context.peek_collect hmode, Context.peek_collect hmode']
  obtain ⟨hrest, hend, hreported⟩ := h
  have hpassed : s'.passed.rest = s.passed.rest := by simp only [State.passed, hrest]
  refine ⟨by rw [hpassed]; rfl, hpassed, hend, ?_⟩
  simp only [State.passed, hrest]
  exact (LeavesOut.refl _).append hreported

theorem filling_missingArgument (hmode : context.mode = .collect)
    (hfill : context.options.fillMissing = false) (command : String) (next : Span)
    (h : filling.states s s') :
    filling.Outcomes (fun _ _ t t' => True ∧ filling.states t t')
      (Readers.missingArgument context command next s)
      (Readers.missingArgument context.filling command next s') := by
  have hfill' : context.filling.options.fillMissing = true := rfl
  unfold Readers.missingArgument Context.report
  rw [hfill, hfill', hmode]
  exact ⟨trivial, h.1, h.2.1, .drop rfl h.2.2⟩

theorem filling_lawful : filling.Lawful where
  token h := by
    cases h
    rfl
  groups h := by
    obtain ⟨-, -, rfl⟩ := h
    rfl
  fewer h := h
  room h := by
    obtain ⟨-, -, rfl⟩ := h
    exact Iff.rfl
  deeper groups h _ := by
    obtain ⟨hmode, hfill, rfl⟩ := h
    exact ⟨hmode, hfill, rfl⟩
  tooDeep _ _ hl hs := by
    cases hl
    exact ⟨rfl, hs.2.2⟩
  lexemeSpan _ := trivial
  pointSpan _ := trivial
  stops _ _ _ _ := trivial
  cover _ _ := trivial
  contents _ := trivial
  report h hl _ hs := by
    obtain ⟨hmode, -, rfl⟩ := h
    cases hl
    exact filling_report hmode _ hs
  invalidDelimiter h hl _ hs := by
    obtain ⟨hmode, -, rfl⟩ := h
    cases hl
    exact filling_report hmode _ hs
  peek h hs := by
    obtain ⟨hmode, -, rfl⟩ := h
    exact filling_peek hmode hs
  advance hl hs hrest hrest' := by
    cases hl
    exact ⟨by simp only [State.advanced, hs.1], rfl, hs.2.2⟩
  missingArgument h hl _ hs := by
    obtain ⟨hmode, hfill, rfl⟩ := h
    cases hl
    exact filling_missingArgument hmode hfill _ _ hs

end Pairing

/-! ## What filling in changes -/

namespace Formula

variable {source : String} {options : ReadingOptions}

theorem runReading_filling (source : String) (options : ReadingOptions) :
    Pairing.filling.Outcomes
      (fun _ _ s s' => LeavesOut s'.reported s.reported)
      (runReading .collect { options with fillMissing := false } source)
      (runReading .collect { options with fillMissing := true } source) := by
  let start : State := { rest := significantItems source }
  let count := (significantItems source).length
  have paired := Pairing.paired_iterate Pairing.filling_lawful (count + 1) .idle .idle
  rw [← Readers.upTo_eq_iterate] at paired
  have hcontexts : Pairing.filling.contexts (count + 1)
      (.ofSource .collect { options with fillMissing := false } source)
      (.ofSource .collect { options with fillMissing := true } source) := ⟨rfl, rfl, rfl⟩
  exact (paired.root hcontexts rfl (fun _ _ _ => Pairing.filling_report rfl _) start start
    ⟨⟨rfl, rfl, .refl _⟩, Nat.lt_succ_of_le start.ahead_le_length⟩).imp
    fun _ _ _ _ _ _ hafter => hafter.2.1.2.2

theorem collect_filling (source : String) (options : ReadingOptions) :
    LeavesOut (collect source { options with fillMissing := true }).errors
        (collect source { options with fillMissing := false }).errors := by
  rw [collect_errors, collect_errors]
  rcases (runReading_filling source options).returned_or_stopped with
    ⟨f, f', s, s', hbare, hfilled, hleaves⟩ | ⟨e, _, s, s', hbare, hfilled, rfl, hleaves⟩
  · rw [hbare, hfilled]
    exact LeavesOut.reverse hleaves
  · rw [hbare, hfilled]
    exact (LeavesOut.keep _ hleaves).reverse

theorem readAll_of_errors_eq_nil (h : (collect source options).errors = []) :
    ∃ formula, readAll source options = .ok formula := by
  cases hall : readAll source options with
  | ok formula => exact ⟨formula, rfl⟩
  | error errors => exact absurd h (readAll_eq_error_iff.mp hall).1

theorem filling_leaves_out (source : String) (options : ReadingOptions) :
    let bare := { options with fillMissing := false }
    let filled := { options with fillMissing := true }
    (∀ formula, read source bare = .ok formula → read source filled = .ok formula) ∧
    (∀ formula, readAll source bare = .ok formula → readAll source filled = .ok formula) ∧
    (∀ errors, readAll source bare = .error errors → ∃ kept, LeavesOut kept errors ∧
      (kept = [] → ∃ formula, readAll source filled = .ok formula) ∧
      (kept ≠ [] → readAll source filled = .error kept)) := by
  intro bare filled
  have hkeeps : ∀ formula, readUntilError source bare = .ok formula →
      readUntilError source filled = .ok formula := by
    intro formula h
    have hbare : readUntilError source { filled with fillMissing := false } = .ok formula := h
    exact readUntilError_fillMissing hbare nofun
  refine ⟨fun formula h => ?_, fun formula h => ?_, fun errors h => ?_⟩
  · exact read_eq_ok_iff.mpr (hkeeps formula (read_eq_ok_iff.mp h))
  · exact readAll_eq_ok_iff.mpr (hkeeps formula (readAll_eq_ok_iff.mp h))
  · obtain ⟨-, rfl⟩ := readAll_eq_error_iff.mp h
    have hperm := ParseError.byStart_perm (collect source filled).errors
    refine ⟨_, (collect_filling source options).byStart, fun hnil => ?_, fun hne => ?_⟩
    · rw [hnil] at hperm
      exact readAll_of_errors_eq_nil hperm.symm.eq_nil
    · refine readAll_eq_error_iff.mpr ⟨fun hnil => hne ?_, rfl⟩
      exact congrArg ParseError.byStart hnil

theorem fraction_leaves_out :
    let source := "\\frac\x7ba\x7d\x7d"
    ∃ errors kept, readAll source {} = .error errors ∧ LeavesOut kept errors ∧
      kept.length = 1 ∧ readAll source { fillMissing := true } = .error kept := by
  intro source
  let missing : ParseError := ⟨.missingArgument "\\frac", ⟨8, 9⟩⟩
  let stray : ParseError := ⟨.unbalancedBraces, ⟨8, 9⟩⟩
  have hbare : readAll source {} = .error [missing, stray] := by decide +kernel
  have hfilled : readAll source { fillMissing := true } = .error [stray] := by decide +kernel
  obtain ⟨kept, hleaves, hnil, hcons⟩ := (filling_leaves_out source {}).2.2 _ hbare
  have hne : kept ≠ [] := by
    intro hempty
    obtain ⟨formula, hread⟩ := hnil hempty
    cases hread.symm.trans hfilled
  obtain rfl : kept = [stray] := Except.error.inj ((hcons hne).symm.trans hfilled)
  exact ⟨_, _, hbare, hleaves, rfl, hfilled⟩

end Formula

end TexMath
