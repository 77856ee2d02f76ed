import TexMath.Proofs.Reading.Disturbance
import TexMath.Proofs.Reading.Exhaustion
import TexMath.Proofs.Token.Joins

/-!
# Sources that break off

Where a formula is still being written, its source breaks off behind a token.  The reading of such a
source goes like that of the whole one up to its end.  There everything that is open is given up,
with an error that says what is missing and no other.
-/

namespace TexMath

namespace Formula

theorem readAll_of_brokenOff {source part : String} {options : ReadingOptions} {formula : Formula}
    (hread : readAll source options = .ok formula)
    (hpart : part = "" ∨ ∃ rest lexeme, source = part ++ rest ∧
      .lexeme lexeme ∈ items source ∧ lexeme.span.stop = part.utf8ByteSize) :
    (∃ found, readAll part options = .ok found) ∨
      ∃ errors, readAll part options = .error errors ∧
        ∀ error ∈ errors, error.cause.isUnfinished = true ∨
          error.cause = .emptyInput ∧ options.allowEmpty = false := by
  obtain ⟨more, hmore⟩ : ∃ more, significantItems source = significantItems part ++ more := by
    rcases hpart with rfl | ⟨rest, lexeme, rfl, hlexeme, hstop⟩
    · exact ⟨significantItems source, rfl⟩
    · exact significantItems_cut hlexeme hstop
  have hfirst := read_eq_ok_iff.mpr (readAll_eq_ok_iff.mp hread)
  have hclear : ∀ error, .fault error ∉ significantItems part := fun error hfault =>
    notMem_items_of_read hfirst error
      (List.mem_filter.mp (hmore ▸ List.mem_append_left more hfault)).1
  obtain ⟨lexemes, hlexemes⟩ := exists_lexemes_of_no_fault hclear
  have hsame : Disturbed false (significantItems part) (significantItems part) [] := by
    rw [hlexemes, ← List.append_nil (lexemes.map Item.lexeme)]
    exact .behind .nil
  obtain ⟨found, s, missing, hrun, hreported, -, hmissing⟩ :=
    runReading_of_disturbed hfirst hmore hsame
  cases hpart : readAll part options with
  | ok formula => exact .inl ⟨formula, rfl⟩
  | error errors =>
      refine .inr ⟨errors, rfl, fun error herror => hmissing error ?_⟩
      have hmem := mem_collect_errors hpart herror
      simpa [collect, hrun, Collected.errors, hreported] using hmem

theorem fraction_brokenOff :
    (∃ formula, readAll "\\left(\\frac12\\right)" = .ok formula) ∧
      ∃ errors, readAll "\\left(\\frac1" = .error errors ∧
        errors.map ParseError.cause = [.missingRight, .missingArgument "\\frac"] ∧
        ∀ error ∈ errors, error.cause.isUnfinished = true := by
  have hwhole : readAll "\\left(\\frac12\\right)" = .ok
      [.group [{ kind := .fraction true, nucleus := ""
                 arguments := [[.symbol .ordinary "1" ⟨11, 12⟩], [.symbol .ordinary "2" ⟨12, 13⟩]]
                 span := ⟨6, 13⟩ }] (some ⟨"(", ")"⟩) ⟨0, 20⟩] := by
    decide +kernel
  have hpart : readAll "\\left(\\frac1" =
      .error [⟨.missingRight, ⟨0, 5⟩⟩, ⟨.missingArgument "\\frac", ⟨12, 12⟩⟩] := by
    decide +kernel
  have hlexeme : .lexeme ⟨.character '1', ⟨11, 12⟩, "1"⟩ ∈ items "\\left(\\frac12\\right)" := by
    decide +kernel
  refine ⟨⟨_, hwhole⟩, _, hpart, rfl, ?_⟩
  rcases @readAll_of_brokenOff _ "\\left(\\frac1" {} _ hwhole
    (.inr ⟨"2\\right)", _, rfl, hlexeme, rfl⟩) with
    ⟨found, hfound⟩ | ⟨errors, herrors, hcauses⟩
  · rw [hpart] at hfound
    cases hfound
  · rw [hpart] at herrors
    cases herrors
    exact fun error herror => (hcauses error herror).resolve_right (by simp)

end Formula

end TexMath
