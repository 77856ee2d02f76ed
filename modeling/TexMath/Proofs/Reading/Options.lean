import TexMath.Proofs.Reading.Errors

/-!
# Stricter options

Options that allow less, a lower limit on the depth or no missing arguments, do not change what is
read: either the reading takes the same steps to the same result, or it ends early with an error
that says what is not allowed.  `Reading.Follows` is that relation between two readings, and every
rule keeps it.
-/

namespace TexMath

variable {α β : Type} {stops : Cause → Prop}

/-- The first options allow less than the second.  An error that comes of it has one of the
causes. -/
structure ReadingOptions.Stricter (stops : Cause → Prop) (mode : ReadingMode)
    (strict lenient : ReadingOptions) : Prop where
  allowEmpty : strict.allowEmpty = lenient.allowEmpty
  maxDepth : strict.maxDepth = lenient.maxDepth ∨
    strict.maxDepth ≤ lenient.maxDepth ∧ stops .nestingTooDeep
  fillMissing : strict.fillMissing = lenient.fillMissing ∨
    strict.fillMissing = false ∧ mode = .firstError ∧ ∀ command, stops (.missingArgument command)

def Context.withOptions (context : Context) (options : ReadingOptions) : Context :=
  { context with options }

namespace Reading

/-- Where the first reading does not do what the second does, it ends with an error of one of the
causes, and up to there the second has hit the same errors. -/
structure Follows (stops : Cause → Prop) (strict lenient : Reading α) : Prop where
  keeps : ∀ s, s.reported <:+ hit (lenient s)
  follows : ∀ s, strict s = lenient s ∨
    ∃ error s', strict s = .error error s' ∧ stops error.cause ∧ s'.reported <:+ hit (lenient s)

namespace Follows

/-! ## Basic steps -/

theorem same {read : Reading α} (keeps : ∀ s, s.reported <:+ hit (read s)) :
    Follows stops read read where
  keeps := keeps
  follows _ := .inl rfl

theorem pure (a : α) : Follows stops (pure a) (pure a) :=
  .same (Agrees.pure a).keeps

theorem report (context : Context) (error : ParseError) :
    Follows stops (context.report error) (context.report error) := by
  refine .same fun s => ?_
  cases hmode : context.mode with
  | firstError =>
      simp only [Context.report, hmode]
      exact List.suffix_cons error s.reported
  | collect =>
      simp only [Context.report, hmode]
      exact List.suffix_cons error s.reported

theorem bind {strict lenient : Reading α} {next next' : α → Reading β}
    (h : Follows stops strict lenient) (hnext : ∀ a, Follows stops (next a) (next' a)) :
    Follows stops (strict >>= next) (lenient >>= next') where
  keeps s := by
    change _ <:+ hit (EStateM.bind lenient next' s)
    have before := h.keeps s
    unfold EStateM.bind
    cases hlenient : lenient s with
    | ok a middle =>
        rw [hlenient] at before
        exact before.trans ((hnext a).keeps middle)
    | error error stopped =>
        rw [hlenient] at before
        exact before
  follows s := by
    change EStateM.bind strict next s = EStateM.bind lenient next' s ∨
      ∃ error s', EStateM.bind strict next s = _ ∧ _ ∧ _ <:+ hit (EStateM.bind lenient next' s)
    unfold EStateM.bind
    rcases h.follows s with hsame | ⟨error, stopped, hstrict, hcause, hhit⟩
    · rw [hsame]
      cases lenient s with
      | ok a middle => exact (hnext a).follows middle
      | error error stopped => exact .inl rfl
    · -- The first reading has ended, and the second keeps on record what it hit before.
      refine .inr ⟨error, stopped, by rw [hstrict], hcause, ?_⟩
      cases hlenient : lenient s with
      | ok a middle =>
          rw [hlenient] at hhit
          exact hhit.trans ((hnext a).keeps middle)
      | error error stopped =>
          rw [hlenient] at hhit
          exact hhit

/-! ## Steps in a context -/

theorem forM_report (context : Context) (faults : List ParseError) :
    Follows stops (faults.forM context.report) (faults.forM context.report) := by
  induction faults with
  | nil => exact .pure PUnit.unit
  | cons error faults ih => exact .bind (.report context error) fun _ => ih

theorem peek (context : Context) : Follows stops context.peek context.peek := by
  refine .same fun s => ?_
  rw [Context.peek_apply]
  have reported : Follows stops ((splitFaults s.rest).1.forM context.report)
      ((splitFaults s.rest).1.forM context.report) := .forM_report context _
  have passed := reported.bind fun _ => .pure (context.upcoming (splitFaults s.rest).2)
  exact passed.keeps { s with rest := (splitFaults s.rest).2 }

theorem throw (error : ParseError) :
    Follows stops (throw error : Reading α) (throw error) :=
  .same (Agrees.throw error).keeps

theorem throw_of_stops {error : ParseError} {lenient : Reading α} (hcause : stops error.cause)
    (keeps : ∀ s, s.reported <:+ hit (lenient s)) :
    Follows stops (MonadExcept.throw error) lenient where
  keeps := keeps
  follows s := .inr ⟨error, s, rfl, hcause, keeps s⟩

variable {strict lenient : ReadingOptions} {context : Context}

theorem deeper (h : strict.Stricter stops context.mode lenient) (place : Span)
    {read : Context → Reading α}
    (hread : ∀ inside : Context, strict.Stricter stops inside.mode lenient →
      Follows stops (read (inside.withOptions strict)) (read (inside.withOptions lenient))) :
    Follows stops ((context.withOptions strict).deeper place read)
      ((context.withOptions lenient).deeper place read) := by
  have inner := hread { context with depth := context.depth + 1 } h
  by_cases hlenient : context.depth < lenient.maxDepth
  · rw [Context.deeper_of_lt (context.withOptions lenient) hlenient]
    by_cases hstrict : context.depth < strict.maxDepth
    · rw [Context.deeper_of_lt (context.withOptions strict) hstrict]
      exact inner
    · rcases h.maxDepth with hsame | ⟨-, hcause⟩
      · omega
      · rw [Context.deeper_of_not_lt (context.withOptions strict) hstrict]
        exact .throw_of_stops hcause inner.keeps
  · have hstrict : ¬context.depth < strict.maxDepth := by
      rcases h.maxDepth with hsame | ⟨hle, -⟩ <;> omega
    rw [Context.deeper_of_not_lt (context.withOptions lenient) hlenient,
      Context.deeper_of_not_lt (context.withOptions strict) hstrict]
    exact .throw _

theorem missingArgument (h : strict.Stricter stops context.mode lenient) (command : String)
    (next : Span) :
    Follows stops (Readers.missingArgument (context.withOptions strict) command next)
      (Readers.missingArgument (context.withOptions lenient) command next) := by
  have recorded : ∀ options, Follows stops
      (Readers.missingArgument (context.withOptions options) command next)
      (Readers.missingArgument (context.withOptions options) command next) := by
    intro options
    unfold Readers.missingArgument
    split
    · exact .pure _
    · exact .bind (.report _ _) fun _ => .pure []
  rcases h.fillMissing with hsame | ⟨hstrict, hmode, hcause⟩
  · unfold Readers.missingArgument at recorded ⊢
    have hfill : (context.withOptions strict).options.fillMissing =
        (context.withOptions lenient).options.fillMissing := hsame
    rw [hfill]
    exact recorded lenient
  · have hthrows : Readers.missingArgument (context.withOptions strict) command next =
        MonadExcept.throw ⟨.missingArgument command, next⟩ := by
      have hfill : (context.withOptions strict).options.fillMissing = false := hstrict
      have hfirst : (context.withOptions strict).mode = .firstError := hmode
      unfold Readers.missingArgument Context.report
      rw [hfill, hfirst]
      rfl
    rw [hthrows]
    exact .throw_of_stops (hcause command) (recorded lenient).keeps

theorem simulation (stops : Cause → Prop) (strict lenient : ReadingOptions) :
    Simulation (fun c c' => ∃ context : Context, strict.Stricter stops context.mode lenient ∧
      c = context.withOptions strict ∧ c' = context.withOptions lenient) (Follows stops) where
  groups := by
    rintro _ _ ⟨context, -, rfl, rfl⟩
    rfl
  allowEmpty := by
    rintro _ _ ⟨context, h, rfl, rfl⟩
    exact h.allowEmpty
  sourceEnd := by
    rintro _ _ ⟨context, -, rfl, rfl⟩
    rfl
  enter := by
    rintro _ _ closer ⟨context, h, rfl, rfl⟩
    exact ⟨{ context with groups := closer :: context.groups }, h, rfl, rfl⟩
  pure := .pure
  bind := .bind
  advance next := .same (Agrees.advance next).keeps
  lastEnd := .same Agrees.lastEnd.keeps
  report := by
    rintro _ _ ⟨context, -, rfl, rfl⟩ error
    exact .report (context.withOptions strict) error
  peek := by
    rintro _ _ ⟨context, -, rfl, rfl⟩
    exact .peek (context.withOptions strict)
  deeper := by
    rintro _ _ _ place _ ⟨context, h, rfl, rfl⟩ hread
    exact .deeper h place fun inside hinside => hread ⟨inside, hinside, rfl, rfl⟩
  missingArgument := by
    rintro _ _ ⟨context, h, rfl, rfl⟩ command next
    exact .missingArgument h command next

end Follows

end Reading

/-! ## One source read with two options -/

open Reading

variable {source : String} {options strict lenient : ReadingOptions} {mode : ReadingMode}

theorem runReading_follows (source : String) (h : strict.Stricter stops mode lenient) :
    runReading mode strict source = runReading mode lenient source ∨
      ∃ error s, runReading mode strict source = .error error s ∧ stops error.cause ∧
        s.reported <:+ hit (runReading mode lenient source) := by
  let context : Context := { options := strict, mode, sourceEnd := source.utf8ByteSize }
  have run := (Follows.simulation stops strict lenient).root
    ((significantItems source).length + 1) ⟨context, h, rfl, rfl⟩
  exact run.follows { rest := significantItems source }

namespace Formula

theorem readAll_of_maxDepth_le {formula : Formula} {depth : Nat}
    (h : readAll source options = .ok formula) (hle : depth ≤ options.maxDepth) :
    readAll source { options with maxDepth := depth } = .ok formula ∨
      ∃ place, readAll source { options with maxDepth := depth } =
        .error [⟨.nestingTooDeep, place⟩] := by
  have stricter : ReadingOptions.Stricter (· = .nestingTooDeep) .collect
      { options with maxDepth := depth } options := ⟨rfl, .inr ⟨hle, rfl⟩, .inl rfl⟩
  obtain ⟨s, hrun⟩ := readUntilError_eq_ok.mp (readAll_eq_ok_iff.mp h)
  obtain ⟨hcollect, hreported⟩ := runReading_collect_of_ok hrun
  have hfollows := runReading_follows source stricter
  rw [hcollect] at hfollows
  rcases hfollows with hsame | ⟨⟨cause, place⟩, stopped, hstrict, rfl, hhit⟩
  · left
    simp [readAll, collect, hsame, hreported]
  · right
    have hnone : stopped.reported = [] := by
      rw [hit, hreported] at hhit
      exact List.suffix_nil.mp hhit
    refine ⟨place, ?_⟩
    simp [readAll, collect, hstrict, hnone, Collected.errors, ParseError.byStart,
      ParseError.insert]

theorem readUntilError_fillMissing {result : Except ParseError Formula}
    (h : readUntilError source { options with fillMissing := false } = result)
    (hcomplete : ∀ error, result = .error error →
      ∀ command, error.cause ≠ .missingArgument command) :
    readUntilError source options = result := by
  have stricter : ReadingOptions.Stricter (fun cause => ∃ command, cause = .missingArgument command)
      .firstError { options with fillMissing := false } options :=
    ⟨rfl, .inl rfl, .inr ⟨rfl, rfl, fun command => ⟨command, rfl⟩⟩⟩
  rcases runReading_follows source stricter with
    hsame | ⟨error, s, hstrict, ⟨command, hcause⟩, -⟩
  · rw [← h, readUntilError, readUntilError, hsame]
  · have herror := readUntilError_eq_error.mpr ⟨s, hstrict⟩
    exact absurd hcause (hcomplete error (h.symm.trans herror) command)

end Formula

end TexMath
