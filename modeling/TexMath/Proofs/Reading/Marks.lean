import TexMath.Proofs.Reading.Composition
import TexMath.Proofs.Reading.Exhaustion

/-!
# Arguments that no placeholder fills

A reading that fills in missing arguments does so in every rule but the one for scripts, which
reports the argument of a mark as missing where the mark of the other script stands right behind it.
`ParseError.BetweenMarks` are these errors.  No other argument of a command or a mark is reported.
-/

namespace TexMath

variable {α β : Type} {items : List Item} {error : ParseError} {s : State} {context : Context}
  {lexeme : Lexeme}

/-- The error about a mark that has the mark of the other script behind it, with nothing between
the two but faults. -/
inductive ParseError.BetweenMarks (items : List Item) : ParseError → Prop
  | intro {front back : List Item} {faults : List ParseError} {mark next : Lexeme}
      {which following : Script} :
      items = front ++ .lexeme mark :: (faults.map .fault ++ .lexeme next :: back) →
      mark.token.script? = some which → next.token.script? = some following →
      following ≠ which → BetweenMarks items ⟨.missingArgument which.mark, next.span⟩

def ParseError.Unfilled (items : List Item) (error : ParseError) : Prop :=
  ∀ command, error.cause = .missingArgument command →
    .fault error ∈ items ∨ error.BetweenMarks items

theorem ParseError.unfilled_of_ne {cause : Cause} {span : Span}
    (h : ∀ command, cause ≠ .missingArgument command) : Unfilled items ⟨cause, span⟩ :=
  fun command hcause => absurd hcause (h command)

/-! ## States -/

namespace State

structure Filled (items : List Item) (s : State) : Prop where
  suffix : s.rest <:+ items
  reported : ∀ error ∈ s.reported, error.Unfilled items

namespace Filled

theorem report (h : s.Filled items) (herror : error.Unfilled items) :
    Filled items { s with reported := error :: s.reported } where
  suffix := h.suffix
  reported := List.forall_mem_cons.mpr ⟨herror, h.reported⟩

theorem passed (h : s.Filled items) : s.passed.Filled items := by
  have hsplit := map_fault_append_splitFaults s.rest
  refine ⟨List.IsSuffix.trans ⟨_, hsplit⟩ h.suffix, fun error herror command _ => ?_⟩
  rcases List.mem_append.mp herror with hfault | hreported
  · refine .inl (h.suffix.subset ?_)
    rw [← hsplit]
    exact List.mem_append_left _ (List.mem_map_of_mem (List.mem_reverse.mp hfault))
  · exact h.reported error hreported command ‹_›

theorem advanced (h : s.Filled items) (lexeme : Lexeme) : (s.advanced lexeme).Filled items where
  suffix := (List.tail_suffix s.rest).trans h.suffix
  reported := h.reported

end Filled

end State

structure Stage.Holds (items : List Item) (context : Context) (stage : Stage) (s : State) :
    Prop where
  filled : s.Filled items
  taken : ∀ l, stage.taken = some l →
    ∃ faults : List ParseError, .lexeme l :: (faults.map .fault ++ s.rest) <:+ items
  faced : ∀ l, stage.faced = some l → l = context.upcoming s.rest

namespace Stage

theorem Holds.of_filled {room : Nat} (h : s.Filled items) :
    Holds items context ⟨room, none, none⟩ s := ⟨h, nofun, nofun⟩

theorem Holds.passed {stage : Stage} (h : stage.Holds items context s) :
    Holds items context { stage with faced := some (context.upcoming s.passed.rest) } s.passed where
  filled := h.filled.passed
  taken l htaken := by
    obtain ⟨faults, hfaults⟩ := h.taken l htaken
    refine ⟨faults ++ (splitFaults s.rest).1, ?_⟩
    rw [List.map_append, List.append_assoc]
    change _ :: (_ ++ (_ ++ (splitFaults s.rest).2)) <:+ items
    rwa [map_fault_append_splitFaults]
  faced := by
    rintro _ ⟨⟩
    rfl

theorem Holds.advanced {room : Nat} {taken : Option Lexeme}
    (h : Holds items context ⟨room, taken, some lexeme⟩ s) (htoken : lexeme.token ≠ .sourceEnd) :
    Holds items context ⟨room + 1, some lexeme, none⟩ (s.advanced lexeme) where
  filled := h.filled.advanced lexeme
  taken := by
    rintro _ ⟨⟩
    have hrest := (State.takes_upcoming (h.faced _ rfl) htoken).rest_eq_cons
    rw [List.map_nil, List.nil_append] at hrest
    refine ⟨[], ?_⟩
    rw [List.map_nil, List.nil_append, ← hrest]
    exact h.filled.suffix
  faced := nofun

theorem Clashes.betweenMarks {stage : Stage} {command : String} {place : Span}
    (h : stage.Clashes command place) (hs : stage.Holds items context s) :
    ParseError.BetweenMarks items ⟨.missingArgument command, place⟩ := by
  cases h with
  | @intro room mark next which following hmark hfollowing hne =>
      have htoken : next.token ≠ .sourceEnd := by
        intro hend
        rw [hend] at hfollowing
        cases hfollowing
      have hrest := (State.takes_upcoming (hs.faced _ rfl) htoken).rest_eq_cons
      obtain ⟨faults, front, hitems⟩ := hs.taken _ rfl
      rw [hrest] at hitems
      exact .intro hitems.symm hmark hfollowing hne

end Stage

/-! ## Readings that keep to it -/

def Reading.Keeps (items : List Item) (before : State → Prop) (read : Reading α) : Prop :=
  ∀ s, before s → match read s with
    | .ok _ t => t.Filled items
    | .error error t => error.Unfilled items ∧ t.Filled items

structure Context.Fills (context : Context) : Prop where
  mode : context.mode = .collect
  fill : context.options.fillMissing = true

namespace Reading.Keeps

variable {before : State → Prop} {read : Reading α} {next : α → Reading β}

theorem pure (a : α) : Keeps items (State.Filled items) (pure a) := fun _ h => h

theorem bind (h : Keeps items before read)
    (hnext : ∀ a, Keeps items (State.Filled items) (next a)) :
    Keeps items before (read >>= next) := by
  intro s hs
  have hread := h s hs
  cases hresult : read s with
  | ok a t =>
      rw [hresult] at hread
      rw [bind_of_ok hresult]
      exact hnext a t hread
  | error error t =>
      rw [hresult] at hread
      rw [bind_of_error hresult]
      exact hread

theorem weaken {before' : State → Prop} (h : Keeps items before read)
    (hbefore : ∀ s, before' s → before s) : Keeps items before' read :=
  fun s hs => h s (hbefore s hs)

variable (fills : context.Fills)
include fills

theorem report (herror : error.Unfilled items) :
    Keeps items (State.Filled items) (context.report error) := by
  intro s hs
  rw [Context.report_collect fills.mode]
  exact hs.report herror

theorem missingArgument (command : String) (place : Span) :
    Keeps items (State.Filled items) (Readers.missingArgument context command place) := by
  unfold Readers.missingArgument
  rw [if_pos fills.fill]
  exact .pure _

theorem ending (formula : Formula) :
    Keeps items (State.Filled items) (context.ending formula) := by
  have herror : ParseError.Unfilled items ⟨.emptyInput, ⟨0, context.sourceEnd⟩⟩ :=
    ParseError.unfilled_of_ne (by simp)
  unfold Context.ending
  split
  · exact (report fills herror).bind fun _ => .pure formula
  · exact .pure formula

theorem peek_bind {stage : Stage} {next : Lexeme → Reading β}
    (hnext : ∀ l, Keeps items (Stage.Holds items context { stage with faced := some l })
      (next l)) :
    Keeps items (stage.Holds items context) (context.peek >>= next) := by
  intro s hs
  rw [bind_of_ok (Context.peek_collect fills.mode s)]
  exact hnext _ _ hs.passed

theorem deeper {place : Span} {inner : Context → Reading α}
    (h : ∀ deep : Context, deep.Fills → Keeps items before (inner deep))
    (hbefore : ∀ s, before s → s.Filled items) :
    Keeps items before (context.deeper place inner) := by
  unfold Context.deeper
  split
  · exact h _ ⟨fills.mode, fills.fill⟩
  · exact fun s hs => ⟨ParseError.unfilled_of_ne nofun, hbefore s hs⟩

theorem inGroup {closer : Closer} {place : Span} {inner : Context → Reading α}
    (h : ∀ deep : Context, deep.Fills → Keeps items before (inner deep))
    (hbefore : ∀ s, before s → s.Filled items) :
    Keeps items before (context.inGroup closer place inner) := by
  have hfills : Context.Fills { context with groups := closer :: context.groups } :=
    ⟨fills.mode, fills.fill⟩
  exact deeper hfills h hbefore

end Reading.Keeps

open Reading in
theorem Composition.keeps {stage : Stage} {read : Context → Reading α}
    (composition : Composition stage read) (fills : context.Fills) :
    Keeps items (stage.Holds items context) (read context) := by
  induction composition generalizing context with
  | pure a => exact (Keeps.pure a).weaken fun _ hs => hs.filled
  | bind _ _ hfirst hrest =>
      exact (hfirst fills).bind fun a => (hrest a fills).weaken fun _ => Stage.Holds.of_filled
  | peek _ hrest => exact Keeps.peek_bind fills fun l => hrest l fills
  | advance htoken _ hrest => exact fun s hs => hrest fills _ (hs.advanced htoken)
  | report cause place hclash =>
      intro s hs
      refine Keeps.report fills (fun command hcause => .inr ?_) s hs.filled
      obtain rfl : cause = .missingArgument command := hcause
      exact (hclash command rfl).betweenMarks hs
  | missing command place =>
      exact (Keeps.missingArgument fills command place).weaken fun _ hs => hs.filled
  | ending formula => exact (Keeps.ending fills formula).weaken fun _ hs => hs.filled
  | lastEnd => exact fun s hs => hs.filled
  | ite _ _ hholds hfails =>
      dsimp only
      split
      · exact hholds ‹_› fills
      · exact hfails ‹_› fills
  | ask _ _ _ hyes hno =>
      dsimp only
      split
      · exact hyes ⟨context, ‹_›⟩ fills
      · exact hno ⟨context, Bool.eq_false_of_not_eq_true ‹_›⟩ fills
  | deeper _ hinner =>
      refine Keeps.deeper fills (fun deep hdeep => ?_) fun _ hs => hs.filled
      exact (hinner hdeep).weaken fun _ hs => ⟨hs.filled, hs.taken, nofun⟩
  | inGroup _ hinner =>
      refine Keeps.inGroup fills (fun deep hdeep => ?_) fun _ hs => hs.filled
      exact (hinner hdeep).weaken fun _ hs => ⟨hs.filled, hs.taken, nofun⟩
  | less _ _ hinner => exact (hinner fills).weaken fun _ hs => .of_filled hs.filled

/-! ## Whole readings -/

namespace Formula

variable {source : String} {options : ReadingOptions}

theorem unfilled_of_collect (hfill : options.fillMissing = true)
    (h : error ∈ (collect source options).errors) : error.Unfilled (significantItems source) := by
  have fills : (Context.ofSource .collect options source).Fills := ⟨rfl, hfill⟩
  have hstart : State.Filled (significantItems source) { rest := significantItems source } :=
    ⟨List.suffix_rfl, by simp⟩
  have hrun := (Readers.composed ((significantItems source).length + 1)).root.keeps fills _
    (Stage.Holds.of_filled hstart)
  rw [collect_errors, List.mem_reverse] at h
  split at hrun
  · rename_i formula t heq
    rw [show runReading .collect options source = .ok formula t from heq] at h
    exact hrun.reported error h
  · rename_i stopped t heq
    rw [show runReading .collect options source = .error stopped t from heq] at h
    rcases List.mem_cons.mp h with rfl | hreported
    · exact hrun.1
    · exact hrun.2.reported error hreported

theorem environment_of_fault {command : String} (h : .fault error ∈ significantItems source)
    (hcause : error.cause = .missingArgument command) :
    command = "\\begin" ∨ command = "\\end" := by
  obtain ⟨text, rest, -, hspelling, -⟩ := covers_of_fault_mem (List.mem_filter.mp h).1
  rw [hcause] at hspelling
  cases hspelling with
  | missingName hcommand => exact hcommand
  | missingNameAtEnd hcommand => exact hcommand

/-- With placeholders, the argument of anything but an environment is reported as missing in one
place alone: between the marks of two different scripts. -/
theorem betweenMarks_of_missingArgument (hfill : options.fillMissing = true) {command : String}
    (hcommand : ¬(command = "\\begin" ∨ command = "\\end"))
    (hcause : error.cause = .missingArgument command)
    (h : (∃ errors, readAll source options = .error errors ∧ error ∈ errors) ∨
      read source options = .error error) :
    error.BetweenMarks (significantItems source) := by
  have hmem : error ∈ (collect source options).errors := by
    rcases h with ⟨errors, hall, hmem⟩ | hread
    · exact mem_collect_errors hall hmem
    · exact mem_collect_errors_of_read hread
  rcases unfilled_of_collect hfill hmem command hcause with hfault | hmarks
  · exact absurd (environment_of_fault hfault hcause) hcommand
  · exact hmarks

theorem superscript_before_subscript :
    let source := "x^_2"
    let error : ParseError := ⟨.missingArgument "^", ⟨2, 3⟩⟩
    readAll source { fillMissing := true } = .error [error] ∧
      error.BetweenMarks (significantItems source) := by
  intro source error
  have hall : readAll source { fillMissing := true } = .error [error] := by decide +kernel
  exact ⟨hall, betweenMarks_of_missingArgument rfl (by decide) rfl
    (.inl ⟨_, hall, List.mem_cons_self⟩)⟩

theorem script_not_filled :
    ¬∀ (source : String) (options : ReadingOptions), options.fillMissing = true →
      ∀ errors, readAll source options = .error errors →
        ∀ error ∈ errors, ∀ command, TakesArgument command →
          error.cause ≠ .missingArgument command := by
  intro h
  have hall : readAll "x^_2" { fillMissing := true } =
      .error [⟨.missingArgument "^", ⟨2, 3⟩⟩] := by decide +kernel
  exact h _ _ rfl _ hall _ List.mem_cons_self "^" (takesArgument_mark .superscript) rfl

end Formula

end TexMath
