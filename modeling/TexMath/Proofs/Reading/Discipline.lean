import TexMath.Proofs.Reading.Mirroring

/-!
# The discipline of the stack

The walk that is made of a reading mirrors it, by induction on what it is composed of, and so do
the walks of the rules and the walk through a whole source.  That the depth is bounded at all
points, that the rules give back the groups they open, and that a short source is never nested too
deep are then read off.
-/

namespace TexMath

open Walk

variable {base : Context} {total : Nat}

/-- The walk comes from where the lexeme that comes next has been looked at, if the stage knows of
one. -/
def Stage.Faces (base : Context) (stage : Stage) (course : Course) : Prop :=
  ∀ l, stage.faced = some l → Facing base l course

theorem Composition.mirrors {α : Type} {stage : Stage} {read : Context → Reading α}
    (composition : Composition stage read) :
    MirrorsFrom (stage.Faces base) base total stage.room (composition.walk base) read := by
  have hplain : ∀ {room : Nat} {taken : Option Lexeme} (course : Course),
      Stage.Faces base ⟨room, taken, none⟩ course := fun _ => nofun
  induction composition with
  | pure a => exact (MirrorsFrom.pure a).weaken fun _ _ => trivial
  | bind _ _ hfirst hrest =>
      exact .bind hfirst fun a => (hrest a).weaken fun course _ => hplain course
  | peek _ hrest =>
      refine MirrorsFrom.weaken (.peek_bind fun l => (hrest l).weaken ?_) fun _ _ => trivial
      rintro course hfacing _ ⟨⟩
      exact hfacing
  | advance htoken _ hrest =>
      refine (MirrorsFrom.advance_bind htoken ?_).weaken fun course hfaces => hfaces _ rfl
      exact hrest.weaken fun course _ => hplain course
  | report cause place _ => exact (MirrorsFrom.report _).weaken fun _ _ => trivial
  | missing command place =>
      exact (mirrors_here fun _ => .missingArgument command place).weaken fun _ _ => trivial
  | ending formula => exact (mirrors_here fun _ => .ending formula).weaken fun _ _ => trivial
  | lastEnd => exact (mirrors_here fun _ => .lastEnd).weaken fun _ _ => trivial
  | ite _ _ hholds hfails => exact .ite hholds hfails
  | ask _ _ _ hyes hno => exact .ask hyes hno
  | deeper _ hinner =>
      exact (MirrorsFrom.nested (hinner.weaken fun course _ => hplain course)).weaken
        fun _ _ => trivial
  | inGroup _ hinner =>
      exact (MirrorsFrom.inGroup (hinner.weaken fun course _ => hplain course)).weaken
        fun _ _ => trivial
  | less hle _ hinner => exact (hinner.more hle).weaken fun course _ => hplain course

/-! ## Whole walks -/

def Walk.Restores {α : Type} (walk : Walk α) : Prop :=
  ∀ course a after, walk course = .ok a after →
    after.standing.groups = course.standing.groups ∧ after.standing.depth = course.standing.depth

theorem Composition.restores {α : Type} {stage : Stage} {read : Context → Reading α}
    (composition : Composition stage read) (base : Context) :
    (composition.walk base).Restores := by
  intro course a after hwalk
  -- How many lexemes there are in all bears only on the depth.
  have hreturns := (@mirrors base 0 _ _ _ composition course).returns
  rw [hwalk] at hreturns
  exact ⟨hreturns.groups, hreturns.depth⟩

structure Readers.Composed.Disciplined {readers : Readers} (composed : readers.Composed)
    (base : Context) : Prop where
  row : ∀ atoms, ((composed.rowStep atoms).walk base).Restores
  lexeme : ∀ lexeme atoms, ((composed.lexemeStep lexeme atoms).walk base).Restores
  argument : ∀ command, ((composed.argument command).walk base).Restores
  table : ∀ environment opened, ((composed.table environment opened).walk base).Restores
  fenced : ∀ opened, ((composed.fenced opened).walk base).Restores
  index : ∀ opened, ((composed.bracketed opened).walk base).Restores

theorem Readers.Composed.disciplined {readers : Readers} (composed : readers.Composed)
    (base : Context) : composed.Disciplined base where
  row _ := Composition.restores _ base
  lexeme _ _ := Composition.restores _ base
  argument _ := Composition.restores _ base
  table _ _ := Composition.restores _ base
  fenced _ := Composition.restores _ base
  index _ := Composition.restores _ base

section

variable (mode : ReadingMode) (options : ReadingOptions) (source : String)

def lexemeCount : Nat := State.ahead { rest := significantItems source }

theorem lexemeCount_le : lexemeCount source ≤ source.utf8ByteSize :=
  Nat.le_trans (State.ahead_le_length _) (length_significantItems_le source)

theorem walkThrough_ends :
    Ends (.ofSource mode options source) (lexemeCount source) 0 (fun _ => True)
      { state := { rest := significantItems source } } (walkThrough mode options source)
      (runReading mode options source) :=
  (Readers.composed _).root.mirrors.weaken (fun _ _ => nofun) _

theorem start_sound :
    Course.Sound options.maxDepth (lexemeCount source) 0
      { state := { rest := significantItems source } } :=
  ⟨Nat.zero_le _, Nat.zero_le _, nofun, Nat.zero_add _⟩

end

namespace Formula

variable {source : String} {options : ReadingOptions} {error : ParseError}

theorem maxDepth_lt_of_collect (h : (collect source options).outcome = .error error) :
    options.maxDepth < source.utf8ByteSize := by
  have hends := walkThrough_ends .collect options source
  cases hwalk : walkThrough .collect options source with
  | error found after =>
      rw [hwalk] at hends
      exact Nat.lt_of_lt_of_le (hends.error trivial (start_sound options source) rfl _ _ rfl)
        (lexemeCount_le source)
  | ok formula after =>
      rw [hwalk] at hends
      have hrun : runReading .collect options source = .ok formula after.state := hends.erase.symm
      simp [collect, hrun] at h

theorem cause_ne_of_mem_collect (hroom : source.utf8ByteSize ≤ options.maxDepth)
    (h : error ∈ (collect source options).errors) : error.cause ≠ .nestingTooDeep := by
  unfold Collected.errors at h
  split at h
  · rcases mem_collect_reported h with hfault | hrule
    · exact cause_ne_of_mem_faults hfault
    · exact hrule.cause_ne
  · rename_i found houtcome
    exact absurd (maxDepth_lt_of_collect houtcome) (Nat.not_lt.mpr hroom)

/-- A walk through a source comes to what the reading comes to.  At every point of it the depth is
within the limit and no more than the lexemes taken, and each of the rules leaves the depth and the
open groups as they were.  So a source is never nested too deep where the limit is not below its
size. -/
theorem stack_discipline (mode : ReadingMode) (options : ReadingOptions) (source : String) :
    let result := walkThrough mode options source
    Walk.erase result = runReading mode options source ∧
    (Walk.final result).standing.taken + (Walk.final result).state.ahead = lexemeCount source ∧
    (∀ standing ∈ (Walk.final result).points,
      standing.depth ≤ options.maxDepth ∧ standing.depth ≤ standing.taken) ∧
    (∀ base bound, (Readers.composed bound).Disciplined base) ∧
    (source.utf8ByteSize ≤ options.maxDepth → ∀ error,
      (readUntilError source options = .error error ∨ read source options = .error error ∨
        ∃ errors, readAll source options = .error errors ∧ error ∈ errors) →
      error.cause ≠ .nestingTooDeep) := by
  intro result
  have hends := walkThrough_ends mode options source
  have hsound := hends.sound trivial (start_sound options source)
  refine ⟨hends.erase, hsound.ahead, fun standing hmem => ?_,
    fun base bound => (Readers.composed bound).disciplined base,
    fun hroom error herror => cause_ne_of_mem_collect hroom ?_⟩
  · have hpoint : standing.Sound options.maxDepth := by
      rcases List.mem_cons.mp hmem with rfl | hpast
      · exact hsound.sound
      · exact hsound.past standing hpast
    exact ⟨hpoint.depth_le_bound, hpoint.depth_le_taken⟩
  · rcases herror with hfirst | hread | ⟨errors, hall, hmem⟩
    · exact List.mem_of_mem_head? (head?_collect_errors hfirst)
    · exact mem_collect_errors_of_read hread
    · exact mem_collect_errors hall hmem

theorem open_groups_discipline :
    let course := Walk.final (walkThrough .collect { maxDepth := 3 } "\x7b\x7bx")
    (∃ standing ∈ course.points, standing.depth = 2 ∧ standing.depth ≤ standing.taken) ∧
      ∃ errors, readAll "\x7b\x7bx" { maxDepth := 3 } = .error errors ∧ errors.length = 2 ∧
        ∀ error ∈ errors, error.cause ≠ .nestingTooDeep := by
  intro course
  obtain ⟨-, -, hpoints, -, hcauses⟩ :=
    stack_discipline .collect { maxDepth := 3 } "\x7b\x7bx"
  have hdeep : ∃ standing ∈ course.points, standing.depth = 2 := by decide +kernel
  obtain ⟨standing, hmem, hdepth⟩ := hdeep
  let inner : ParseError := ⟨.unbalancedBraces, ⟨1, 2⟩⟩
  let outer : ParseError := ⟨.unbalancedBraces, ⟨0, 1⟩⟩
  have hall : readAll "\x7b\x7bx" { maxDepth := 3 } = .error [outer, inner] := by decide +kernel
  refine ⟨⟨standing, hmem, hdepth, (hpoints standing hmem).2⟩, _, hall, rfl, fun error herror => ?_⟩
  exact hcauses (by decide) error (.inr (.inr ⟨_, hall, herror⟩))

/-- Only the limit on the depth ends a reading that records errors, and it does so once.  A row ends
in front of what closes a group that is open around it.  So any other such reading ends with its
items, where the walk through the source has left every group and is back at depth zero, and each
fault is reported once. -/
theorem collect_reads_all (source : String) (options : ReadingOptions) :
    (∀ (context : Context) (formula : Formula) (s t : State),
      s.ahead ≤ (significantItems source).length →
      (Readers.upTo ((significantItems source).length + 1)).row context [] s = .ok formula t →
      context.closes (context.upcoming t.rest).token = true) ∧
    (∀ error, (collect source options).outcome = .error error → error.cause = .nestingTooDeep) ∧
    (∀ error ∈ (collect source options).reported, error.cause ≠ .nestingTooDeep) ∧
    (∀ formula, (collect source options).outcome = .ok formula →
      (∃ s, (Readers.upTo ((significantItems source).length + 1)).row
          { options, mode := .collect, sourceEnd := source.utf8ByteSize, groups := [], depth := 0 }
          [] { rest := significantItems source } = .ok formula s ∧ s.rest = []) ∧
      (∃ course, walkThrough .collect options source = .ok formula course ∧
        course.state.rest = [] ∧ course.standing.groups = [] ∧ course.standing.depth = 0) ∧
      ∀ fault ∈ faults source, ∃ errors, readAll source options = .error errors ∧
        errors.count fault = 1) := by
  refine ⟨fun context formula s t hahead hrow => ?_, fun error h => ?_, fun error herror => ?_,
    fun formula h => ⟨?_, ?_, fun fault => count_fault_of_collect h⟩⟩
  · rw [Readers.upTo_eq_iterate] at hrow
    exact (Readers.row_iterate_ok (Nat.lt_succ_of_le hahead) hrow).2.2
  · obtain ⟨lexeme, -, rfl⟩ := collect_outcome_eq_error h
    rfl
  · rcases mem_collect_reported herror with hfault | hrule
    · exact cause_ne_of_mem_faults hfault
    · exact hrule.cause_ne
  · obtain ⟨s, hrun, -⟩ := collect_outcome_eq_ok h
    exact row_of_runReading hrun
  · obtain ⟨s, hrun, -⟩ := collect_outcome_eq_ok h
    have hends := walkThrough_ends .collect options source
    cases hwalk : walkThrough .collect options source with
    | error error after =>
        rw [hwalk, hrun] at hends
        cases hends.erase
    | ok found course =>
        rw [hwalk, hrun] at hends
        obtain ⟨rfl, rfl⟩ := EStateM.Result.ok.inj hends.erase
        exact ⟨course, rfl, (runReading_ok hrun).1, hends.returns.groups, hends.returns.depth⟩

theorem open_group_reads_all :
    let source := "\x7b#"
    ∃ errors, readAll source {} = .error errors ∧
      errors.count ⟨.unexpectedCharacter '#', ⟨1, 2⟩⟩ = 1 := by
  intro source
  have hread : (collect source {}).outcome = .ok [.group [] none ⟨0, 1⟩] := by decide +kernel
  have hfault : ⟨.unexpectedCharacter '#', ⟨1, 2⟩⟩ ∈ faults source := by decide +kernel
  exact ((collect_reads_all source {}).2.2.2 _ hread).2.2 _ hfault

end Formula

end TexMath
