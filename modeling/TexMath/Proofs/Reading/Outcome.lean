import TexMath.Reading.Run

/-!
# Outcomes of a reading

A reading that returns a value went through each of its steps and every step returned.  The lemmas
here say what each basic step returns and in which state, so that the rules for rows, arguments and
groups can be followed step by step.
-/

namespace TexMath

variable {α β : Type} {s s' : State}

namespace Reading

theorem pure_eq_ok {a b : α} :
    (pure a : Reading α) s = .ok b s' ↔ a = b ∧ s = s' := by
  change EStateM.Result.ok a s = _ ↔ _
  simp

theorem bind_eq_ok {read : Reading α} {next : α → Reading β} {b : β} :
    (read >>= next) s = .ok b s' ↔
      ∃ a middle, read s = .ok a middle ∧ next a middle = .ok b s' := by
  change EStateM.bind read next s = _ ↔ _
  unfold EStateM.bind
  cases h : read s with
  | error error stopped => simp
  | ok a middle =>
      constructor
      · intro hnext
        exact ⟨a, middle, rfl, hnext⟩
      · rintro ⟨a', middle', heq, hnext⟩
        cases heq
        exact hnext

theorem bind_of_ok {read : Reading α} {a : α} {middle : State} (h : read s = .ok a middle)
    (next : α → Reading β) : (read >>= next) s = next a middle := by
  change EStateM.bind read next s = _
  unfold EStateM.bind
  rw [h]

theorem bind_of_error {read : Reading α} {error : ParseError} {stopped : State}
    (h : read s = .error error stopped) (next : α → Reading β) :
    (read >>= next) s = .error error stopped := by
  change EStateM.bind read next s = _
  unfold EStateM.bind
  rw [h]

theorem throw_ne_ok (error : ParseError) (a : α) :
    (throw error : Reading α) s ≠ .ok a s' := by
  change EStateM.Result.error error s ≠ _
  simp

end Reading

namespace Context

theorem report_ne_ok {context : Context} (first : context.mode = .firstError)
    (error : ParseError) (a : Unit) : context.report error s ≠ .ok a s' := by
  simp only [report, first]
  exact Reading.throw_ne_ok error a

theorem report_bind_ne_ok {context : Context} (first : context.mode = .firstError)
    (error : ParseError) (next : Unit → Reading α) (a : α) :
    (context.report error >>= next) s ≠ .ok a s' := by
  rw [Ne, Reading.bind_eq_ok]
  rintro ⟨done, middle, hreport, -⟩
  exact report_ne_ok first error done hreport

theorem deeper_of_lt (context : Context) (h : context.depth < context.options.maxDepth)
    (place : Span) (read : Context → Reading α) :
    context.deeper place read = read { context with depth := context.depth + 1 } :=
  if_pos h

theorem deeper_of_not_lt (context : Context) (h : ¬context.depth < context.options.maxDepth)
    (place : Span) (read : Context → Reading α) :
    context.deeper place read = throw ⟨.nestingTooDeep, place⟩ :=
  if_neg h

theorem deeper_eq_ok (context : Context) {place : Span} {read : Context → Reading α} {a : α} :
    context.deeper place read s = .ok a s' ↔
      context.depth < context.options.maxDepth ∧
        read { context with depth := context.depth + 1 } s = .ok a s' := by
  unfold deeper
  split
  · rename_i room
    simp [room]
  · rename_i full
    simp [full, Reading.throw_ne_ok]

def inside (context : Context) (closer : Closer) : Context :=
  { context with groups := closer :: context.groups, depth := context.depth + 1 }

theorem inGroup_of_lt {context : Context} (h : context.depth < context.options.maxDepth)
    (closer : Closer) (place : Span) (read : Context → Reading α) :
    context.inGroup closer place read = read (context.inside closer) :=
  deeper_of_lt { context with groups := closer :: context.groups } h place read

theorem inGroup_eq_ok {context : Context} {closer : Closer} {place : Span}
    {read : Context → Reading α} {a : α} :
    context.inGroup closer place read s = .ok a s' ↔
      context.depth < context.options.maxDepth ∧ read (context.inside closer) s = .ok a s' :=
  deeper_eq_ok { context with groups := closer :: context.groups }

/-! ## The next lexeme -/

/-- The lexeme in front of the items; behind the last one that is the end of the source. -/
def upcoming (context : Context) : List Item → Lexeme
  | .lexeme next :: _ => next
  | _ => ⟨.sourceEnd, .point context.sourceEnd, ""⟩

theorem peek_apply (context : Context) (s : State) :
    context.peek s =
      ((splitFaults s.rest).1.forM context.report >>= fun _ =>
        pure (context.upcoming (splitFaults s.rest).2) : Reading Lexeme)
        { s with rest := (splitFaults s.rest).2 } := by
  change ((splitFaults s.rest).1.forM context.report >>= fun _ => _ : Reading Lexeme) _ = _
  generalize splitFaults s.rest = split
  obtain ⟨faults, _ | ⟨_ | _, _⟩⟩ := split <;> rfl

theorem splitFaults_of_nil {rest : List Item} (h : (splitFaults rest).1 = []) :
    (splitFaults rest).2 = rest := by
  unfold splitFaults at h ⊢
  split at h
  · cases h
  · rfl

theorem peek_of_nil {s : State} (context : Context) (h : (splitFaults s.rest).1 = []) :
    context.peek s = .ok (context.upcoming s.rest) s := by
  rw [peek_apply, h, splitFaults_of_nil h]
  rfl

theorem peek_eq_ok {context : Context} (first : context.mode = .firstError) {next : Lexeme} :
    context.peek s = .ok next s' ↔
      (splitFaults s.rest).1 = [] ∧ next = context.upcoming s.rest ∧ s' = s := by
  cases h : (splitFaults s.rest).1 with
  | nil =>
      rw [peek_of_nil context h]
      simp [eq_comm]
  | cons error faults =>
      rw [peek_apply, h, Reading.bind_eq_ok]
      change (∃ a middle, (context.report error >>= fun _ => faults.forM context.report) _ =
        .ok a middle ∧ _) ↔ _
      simp [Reading.bind_eq_ok, report_ne_ok first]

theorem peek_bind_eq_ok {context : Context} (first : context.mode = .firstError)
    {next : Lexeme → Reading α} {a : α} :
    (context.peek >>= next) s = .ok a s' ↔
      (splitFaults s.rest).1 = [] ∧ next (context.upcoming s.rest) s = .ok a s' := by
  rw [Reading.bind_eq_ok]
  constructor
  · rintro ⟨lexeme, middle, hpeek, h⟩
    obtain ⟨hclear, rfl, rfl⟩ := (peek_eq_ok first).mp hpeek
    exact ⟨hclear, h⟩
  · rintro ⟨hclear, h⟩
    exact ⟨_, s, peek_of_nil context hclear, h⟩

end Context

/-! ## Whole readings -/

namespace Readers

open Reading

variable {readers : Readers} {context : Context}

theorem root_of_row_ok {formula : Formula} {t : State}
    (h : readers.row context [] s = .ok formula t)
    (hkept : context.options.allowEmpty = true ∨ formula ≠ []) :
    readers.root context s = .ok formula t := by
  have hfilled : ¬(formula.isEmpty && !context.options.allowEmpty) = true := by
    rcases hkept with hallowed | hne
    · simp [hallowed]
    · simp [hne]
  unfold Readers.root
  rw [bind_of_ok h]
  exact congrFun (if_neg hfilled) t

theorem root_eq_row
    (hatoms : ∀ formula t, readers.row context [] s = .ok formula t → formula ≠ []) :
    readers.root context s = readers.row context [] s := by
  cases hrow : readers.row context [] s with
  | ok formula t => exact root_of_row_ok hrow (.inr (hatoms formula t hrow))
  | error error t => exact bind_of_error hrow _

end Readers

end TexMath
