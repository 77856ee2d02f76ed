import TexMath.Proofs.Reading.Outcome
import TexMath.Proofs.Reading.Simulation
import Mathlib.Data.List.Infix

/-!
# The two modes of a reading

A reading that stops at the first error and one that records errors take the same steps up to the
first error.  `Reading.Agrees` compares the two runs: when the first returns, the second returns the
same value in the same state; when the first stops, its error is the first that the second hits.
Every rule of the reading keeps this relation, because errors pass through `Context.report` or end
the reading in both modes.
-/

namespace TexMath

variable {α β : Type}

def Context.inMode (context : Context) (mode : ReadingMode) : Context := { context with mode }

/-- The errors hit in a run, the latest first.  The error that ends a run is its latest. -/
def Reading.hit : EStateM.Result ParseError State α → List ParseError
  | .ok _ s => s.reported
  | .error error s => error :: s.reported

/-- The first reading stops at an error, the second records errors. -/
structure Reading.Agrees (first collect : Reading α) : Prop where
  keeps : ∀ s, s.reported <:+ hit (collect s)
  of_ok : ∀ {s a s'}, first s = .ok a s' → collect s = .ok a s' ∧ s'.reported = s.reported
  of_error : ∀ {s error s'}, first s = .error error s' →
    error :: s.reported <:+ hit (collect s)

namespace Reading.Agrees

/-! ## Basic steps -/

theorem pure (a : α) : Agrees (pure a) (pure a) where
  keeps s := List.suffix_refl s.reported
  of_ok h := by
    obtain ⟨rfl, rfl⟩ := Reading.pure_eq_ok.mp h
    exact ⟨rfl, rfl⟩
  of_error h := by cases h

theorem step {read : Reading α} (value : State → α) (next : State → State)
    (hread : ∀ s, read s = .ok (value s) (next s))
    (hnext : ∀ s, (next s).reported = s.reported) : Agrees read read where
  keeps s := by
    rw [hread, hit, hnext]
  of_ok {s a s'} h := by
    rw [hread] at h
    cases h
    exact ⟨hread s, hnext s⟩
  of_error h := by
    rw [hread] at h
    cases h

theorem advance (next : Lexeme) : Agrees (Context.advance next) (Context.advance next) :=
  .step (fun _ => PUnit.unit) (fun s => { s with rest := s.rest.tail, lastEnd := next.span.stop })
    (fun _ => rfl) (fun _ => rfl)

theorem lastEnd : Agrees lastEnd lastEnd :=
  .step State.lastEnd id (fun _ => rfl) (fun _ => rfl)

theorem throw (error : ParseError) : Agrees (throw error : Reading α) (throw error) where
  keeps s := List.suffix_cons error s.reported
  of_ok h := absurd h (Reading.throw_ne_ok error _)
  of_error {s _ _} h := by
    cases h
    exact List.suffix_refl (error :: s.reported)

theorem bind {first collect : Reading α} {next next' : α → Reading β}
    (h : Agrees first collect) (hnext : ∀ a, Agrees (next a) (next' a)) :
    Agrees (first >>= next) (collect >>= next') where
  keeps s := by
    change _ <:+ hit (EStateM.bind collect next' s)
    have before := h.keeps s
    unfold EStateM.bind
    cases hcollect : collect s with
    | ok a middle =>
        rw [hcollect] at before
        exact before.trans ((hnext a).keeps middle)
    | error error stopped =>
        rw [hcollect] at before
        exact before
  of_ok {s b s'} hok := by
    obtain ⟨a, middle, hfirst, hrest⟩ := Reading.bind_eq_ok.mp hok
    obtain ⟨hcollect, hmiddle⟩ := h.of_ok hfirst
    obtain ⟨hrest', hs'⟩ := (hnext a).of_ok hrest
    exact ⟨Reading.bind_eq_ok.mpr ⟨a, middle, hcollect, hrest'⟩, hs'.trans hmiddle⟩
  of_error {s error s'} herror := by
    change EStateM.bind first next s = _ at herror
    change _ <:+ hit (EStateM.bind collect next' s)
    unfold EStateM.bind at herror ⊢
    cases hfirst : first s with
    | ok a middle =>
        -- The two runs still agree, and part in the second step.
        obtain ⟨hcollect, hmiddle⟩ := h.of_ok hfirst
        simp only [hfirst] at herror
        simp only [hcollect]
        rw [← hmiddle]
        exact (hnext a).of_error herror
    | error error' stopped =>
        -- The runs have parted, and the second one keeps the error on record.
        simp only [hfirst, EStateM.Result.error.injEq] at herror
        obtain ⟨rfl, rfl⟩ := herror
        have parted := h.of_error hfirst
        cases hcollect : collect s with
        | ok a middle =>
            rw [hcollect] at parted
            exact parted.trans ((hnext a).keeps middle)
        | error error stopped =>
            rw [hcollect] at parted
            exact parted

theorem ite {condition : Prop} [Decidable condition] {first collect other other' : Reading α}
    (h : condition → Agrees first collect) (hother : ¬condition → Agrees other other') :
    Agrees (if condition then first else other) (if condition then collect else other') := by
  split
  · rename_i holds
    exact h holds
  · rename_i fails
    exact hother fails

/-! ## Steps in a context -/

variable (context : Context)

theorem report (error : ParseError) :
    Agrees ((context.inMode .firstError).report error)
      ((context.inMode .collect).report error) where
  keeps s := List.suffix_cons error s.reported
  of_ok h := absurd h (Context.report_ne_ok rfl error _)
  of_error {s _ _} h := by
    cases h
    exact List.suffix_refl (error :: s.reported)

theorem forM_report (faults : List ParseError) :
    Agrees (faults.forM (context.inMode .firstError).report)
      (faults.forM (context.inMode .collect).report) := by
  induction faults with
  | nil => exact .pure PUnit.unit
  | cons error faults ih => exact .bind (.report context error) fun _ => ih

theorem peek :
    Agrees (context.inMode .firstError).peek (context.inMode .collect).peek := by
  have passed (s : State) := Agrees.bind (.forM_report context (splitFaults s.rest).1)
    fun _ => .pure (context.upcoming (splitFaults s.rest).2)
  refine ⟨fun s => ?_, fun {s _ _} h => ?_, fun {s _ _} h => ?_⟩
  · rw [Context.peek_apply]
    exact (passed s).keeps { s with rest := (splitFaults s.rest).2 }
  · rw [Context.peek_apply] at h ⊢
    exact (passed s).of_ok h
  · rw [Context.peek_apply] at h ⊢
    exact (passed s).of_error h

theorem deeper (place : Span) {read : Context → Reading α}
    (h : ∀ context : Context,
      Agrees (read (context.inMode .firstError)) (read (context.inMode .collect))) :
    Agrees ((context.inMode .firstError).deeper place read)
      ((context.inMode .collect).deeper place read) :=
  .ite (fun _ => h { context with depth := context.depth + 1 })
    fun _ => .throw ⟨.nestingTooDeep, place⟩

theorem missingArgument (command : String) (next : Span) :
    Agrees (Readers.missingArgument (context.inMode .firstError) command next)
      (Readers.missingArgument (context.inMode .collect) command next) := by
  apply Agrees.ite
  · intro _
    exact .pure _
  · intro _
    exact .bind (.report context ⟨.missingArgument command, next⟩) fun _ => .pure []

theorem simulation :
    Simulation (fun c c' => ∃ context : Context,
      c = context.inMode .firstError ∧ c' = context.inMode .collect) Agrees where
  groups := by
    rintro _ _ ⟨context, rfl, rfl⟩
    rfl
  allowEmpty := by
    rintro _ _ ⟨context, rfl, rfl⟩
    rfl
  sourceEnd := by
    rintro _ _ ⟨context, rfl, rfl⟩
    rfl
  enter := by
    rintro _ _ closer ⟨context, rfl, rfl⟩
    exact ⟨{ context with groups := closer :: context.groups }, rfl, rfl⟩
  pure := .pure
  bind := .bind
  advance := .advance
  lastEnd := .lastEnd
  report := by
    rintro _ _ ⟨context, rfl, rfl⟩ error
    exact .report context error
  peek := by
    rintro _ _ ⟨context, rfl, rfl⟩
    exact .peek context
  deeper := by
    rintro _ _ _ place _ ⟨context, rfl, rfl⟩ hread
    exact .deeper context place fun inside => hread ⟨inside, rfl, rfl⟩
  missingArgument := by
    rintro _ _ ⟨context, rfl, rfl⟩ command next
    exact .missingArgument context command next

end Reading.Agrees

end TexMath
