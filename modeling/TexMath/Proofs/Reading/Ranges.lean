import TexMath.Proofs.Reading.Exhaustion

/-!
# The text that an error points at

The span of every error, of a source however malformed, covers a slice of the source, and that slice
is what the message of the error names.
-/

namespace TexMath

variable {source slice : String} {options : ReadingOptions} {error : ParseError}

theorem Span.Covers.bounds {span : Span} (h : span.Covers source slice) :
    span.start ≤ span.stop ∧ span.stop ≤ source.utf8ByteSize := by
  obtain ⟨before, after, rfl, hstart, hstop⟩ := h
  simp only [String.utf8ByteSize_append]
  omega

/-- The slice of the source that the error points at is what the message of the error is about. -/
def ParseError.PointsAt (error : ParseError) (source slice : String) : Prop :=
  match error.cause with
  | .unknownCommand name => slice = "\\" ++ name
  | .unexpectedCharacter c => slice = String.singleton c
  | .unknownEnvironment name => slice = "\x7b" ++ name ++ "\x7d"
  | .invalidDelimiter text => Text.trimEnd slice = text
  | .duplicateScript script | .scriptNotAllowed script => slice = script.mark
  | .invalidLimits => slice = "\\limits" ∨ slice = "\\nolimits"
  | .missingLeft => slice = Fence.right.command
  | .missingRight => slice = Fence.left.command
  | .missingDelimiter fence => slice = fence.command
  | .unbalancedBrackets => slice = "["
  | .misplacedSeparator separator => slice = separator.mark
  | .missingEnd environment => environment.WrittenAs "\\begin" slice
  | .missingBegin environment => environment.WrittenAs "\\end" slice
  | .mismatchedEnvironment _ found => found.WrittenAs "\\end" slice
  | .unbalancedBraces =>
      slice = "\x7b" ∨ slice = "\x7d" ∨ slice = "" ∧ error.span.start = source.utf8ByteSize
  | .emptyInput => slice = source
  | .missingArgument _ | .nestingTooDeep => True

/-! ## Errors about a lexeme -/

theorem Cause.At.pointsAt {lexeme : Lexeme} {cause : Cause} (h : cause.At lexeme)
    (hwritten : lexeme.token.Written lexeme.text) :
    ParseError.PointsAt ⟨cause, lexeme.span⟩ source lexeme.text := by
  cases h with
  | unknownCommand htoken => rwa [htoken] at hwritten
  | missingArgument => trivial
  | @duplicateScript which hmark =>
      generalize lexeme.token = token at hmark hwritten
      cases token <;> cases hmark <;> exact hwritten
  | @scriptNotAllowed which hmark =>
      generalize lexeme.token = token at hmark hwritten
      cases token <;> cases hmark <;> exact hwritten
  | openBrace htoken => exact .inl (by rwa [htoken] at hwritten)
  | closeBrace htoken => exact .inr (.inl (by rwa [htoken] at hwritten))
  | unbalancedBrackets htoken => rwa [htoken] at hwritten
  | unexpectedCharacter htoken => rwa [htoken] at hwritten
  | invalidLimits htoken hfind =>
      rw [htoken] at hwritten
      rcases Command.eq_limits_of_find? hfind with rfl | rfl
      · exact .inl hwritten
      · exact .inr hwritten
  | missingLeftDelimiter htoken => rwa [htoken] at hwritten
  | missingRightDelimiter htoken => rwa [htoken] at hwritten
  | invalidDelimiter => rfl
  | missingRight htoken => rwa [htoken] at hwritten
  | missingLeft htoken => rwa [htoken] at hwritten
  | mismatchedEnvironment htoken => rwa [htoken] at hwritten
  | missingEnd htoken => rwa [htoken] at hwritten
  | missingBegin htoken => rwa [htoken] at hwritten
  | columnMark htoken => rwa [htoken] at hwritten
  | newRow htoken => rwa [htoken] at hwritten

theorem covers_of_metIn {lexeme : Lexeme}
    (h : lexeme.MetIn (significantItems source) source.utf8ByteSize) :
    lexeme.span.Covers source lexeme.text ∧ lexeme.token.Written lexeme.text := by
  rcases h with hmem | rfl
  · exact covers_of_lexeme_mem (List.mem_filter.mp hmem).1
  · exact ⟨⟨source, "", by simp [Lexeme.ending], rfl, rfl⟩, trivial⟩

theorem ParseError.Sited.covers (h : error.Sited (significantItems source) source.utf8ByteSize) :
    ∃ slice, error.span.Covers source slice ∧ error.PointsAt source slice := by
  cases h with
  | lexeme hmet hcause =>
      obtain ⟨hcovers, hwritten⟩ := covers_of_metIn hmet
      exact ⟨_, hcovers, hcause.pointsAt hwritten⟩
  | empty => exact ⟨source, ⟨"", "", by simp, rfl, (Nat.zero_add _).symm⟩, rfl⟩

/-! ## Errors of text that forms no token -/

theorem covers_of_mem_faults (h : error ∈ faults source) :
    ∃ slice, error.span.Covers source slice ∧ error.PointsAt source slice := by
  obtain ⟨text, rest, hcovers, hspelling, hend⟩ := covers_of_fault_mem (mem_faults.mp h)
  refine ⟨_, hcovers, ?_⟩
  obtain ⟨cause, span⟩ := error
  cases hspelling with
  | unexpectedCharacter => exact String.toList_inj.mp (by simp)
  | missingName | missingNameAtEnd => trivial
  | unclosedName =>
      obtain ⟨before, after, -, -, hstop⟩ := hcovers
      exact .inr (.inr ⟨rfl, hstop.symm.trans (hend rfl)⟩)
  | unknownEnvironment => exact String.toList_inj.mp (by simp)

/-! ## All errors -/

namespace Formula

theorem covers_of_mem_collect_errors (h : error ∈ (collect source options).errors) :
    ∃ slice, error.span.Covers source slice ∧ error.PointsAt source slice := by
  have hreported : error ∈ (collect source options).reported →
      ∃ slice, error.span.Covers source slice ∧ error.PointsAt source slice := by
    intro hmem
    rcases mem_collect_reported hmem with hfault | hrule
    · exact covers_of_mem_faults hfault
    · exact hrule.covers
  unfold Collected.errors at h
  split at h
  · exact hreported h
  · rename_i ending houtcome
    rcases List.mem_append.mp h with hmem | hlast
    · exact hreported hmem
    · obtain rfl := List.mem_singleton.mp hlast
      obtain ⟨lexeme, hmet, rfl⟩ := collect_outcome_eq_error houtcome
      exact ⟨_, (covers_of_metIn hmet).1, trivial⟩

theorem error_points_at_source (source : String) (options : ReadingOptions) (error : ParseError)
    (h : read source options = .error error ∨
      ∃ errors, readAll source options = .error errors ∧ error ∈ errors) :
    error.span.start ≤ error.span.stop ∧ error.span.stop ≤ source.utf8ByteSize ∧
      ∃ slice, error.span.Covers source slice ∧ error.PointsAt source slice := by
  have hmem : error ∈ (collect source options).errors := by
    rcases h with hread | ⟨errors, hall, hmem⟩
    · obtain ⟨rest, hall⟩ := readAll_of_read_error hread
      exact mem_collect_errors hall List.mem_cons_self
    · exact mem_collect_errors hall hmem
  obtain ⟨slice, hcovers, hpoints⟩ := covers_of_mem_collect_errors hmem
  exact ⟨hcovers.bounds.1, hcovers.bounds.2, slice, hcovers, hpoints⟩

theorem unopened_matrix_points :
    let source := "é\\end  \x7bmatrix\x7d"
    let error : ParseError := ⟨.missingBegin .matrix, ⟨2, 16⟩⟩
    ∃ errors, readAll source {} = .error errors ∧ error ∈ errors ∧
      ∃ slice, error.span.Covers source slice ∧
        Environment.WrittenAs "\\end" .matrix slice := by
  intro source error
  have hall : readAll source {} = .error [error] := by decide +kernel
  have hmem : error ∈ [error] := List.mem_singleton_self _
  exact ⟨_, hall, hmem, (error_points_at_source source {} error (.inr ⟨_, hall, hmem⟩)).2.2⟩

end Formula

end TexMath
