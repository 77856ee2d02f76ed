import TexMath.Proofs.Grammar.Canonical
import TexMath.Proofs.Grammar.Language
import TexMath.Proofs.Reading.WellFormed

/-!
# Reading what was written

The canonical text of a well-formed formula is read as that formula again.  The formulas that are
read are therefore exactly the well-formed ones, and writing what was read loses nothing but spans.
-/

namespace TexMath.Formula

open Grammar

variable {options : ReadingOptions} {formula : Formula}

theorem WellFormed.text_derives (h : WellFormed formula) :
    ∃ lexemes found, significantItems formula.text = lexemes.map .lexeme ∧
      Row false lexemes found ∧ erase found = erase formula := by
  obtain ⟨tokens, hspells, hrow⟩ := h.written false false id
  obtain ⟨lexemes, hitems, htokens⟩ := significantItems_of_lexes hspells.lexes
  have hsame : Lexeme.SameTokens lexemes (Lexeme.bares tokens) := by
    rw [Lexeme.SameTokens, htokens, Lexeme.map_token_bares]
  obtain ⟨found, hfound, herase⟩ := hrow.relocate hsame
  exact ⟨lexemes, found, hitems, hfound, by rw [herase, erase_erase]⟩

theorem WellFormed.readUntilError_text (h : WellFormed formula)
    (hexact : options.fillMissing = false) (hempty : options.allowEmpty = true ∨ formula ≠ [])
    (hdepth : nest formula ≤ options.maxDepth) :
    ∃ found, readUntilError formula.text options = .ok found ∧ found.alike formula = true := by
  obtain ⟨lexemes, found, hitems, hrow, herase⟩ := h.text_derives
  refine ⟨found, (readUntilError_eq_ok_iff hexact).mpr ⟨?_, ?_, lexemes, hitems, hrow⟩,
    (alike_iff _ _).mpr herase⟩
  · rwa [Ne, ← erase_eq_nil, herase, erase_eq_nil]
  · rwa [nest_eq_of_erase herase]

theorem read_text_of_read (source : String) (options : ReadingOptions) (formula : Formula)
    (hexact : options.fillMissing = false) (h : read source options = .ok formula) :
    ∃ found, read formula.text options = .ok found ∧ found.alike formula = true := by
  rw [read_eq_ok_iff] at h
  obtain ⟨hempty, hdepth, -⟩ := (readUntilError_eq_ok_iff hexact).mp h
  obtain ⟨found, hread, halike⟩ :=
    (wellFormed_of_readUntilError h).readUntilError_text hexact hempty hdepth
  exact ⟨found, read_eq_ok_iff.mpr hread, halike⟩

theorem root_text :
    ∃ found, read (text [{ kind := .radical, nucleus := "√"
                           arguments := [[.symbol .ordinary "3" ⟨14, 15⟩],
                             [.symbol .closing "]" ⟨6, 13⟩]]
                           span := ⟨0, 15⟩ }]) {} = .ok found ∧
      found.alike [{ kind := .radical, nucleus := "√"
                     arguments := [[.symbol .ordinary "3"], [.symbol .closing "]"]] }] = true := by
  have hread : read "\\sqrt[\\rbrack]3" {} = .ok
      [{ kind := .radical, nucleus := "√"
         arguments := [[.symbol .ordinary "3" ⟨14, 15⟩], [.symbol .closing "]" ⟨6, 13⟩]]
         span := ⟨0, 15⟩ }] := by
    decide +kernel
  exact read_text_of_read _ {} _ rfl hread

theorem readings_wellFormed :
    (∀ (source : String) (options : ReadingOptions) (formula : Formula),
      readUntilError source options = .ok formula ∨ readAll source options = .ok formula →
        WellFormed formula) ∧
    ∀ formula, WellFormed formula → ∃ source depth, ∀ options : ReadingOptions,
      options.fillMissing = false → (options.allowEmpty = true ∨ formula ≠ []) →
      depth ≤ options.maxDepth →
        ∃ found, readUntilError source options = .ok found ∧ found.alike formula = true := by
  refine ⟨fun source options formula hread => ?_, fun formula hformula => ?_⟩
  · rw [readAll_eq_ok_iff, or_self] at hread
    exact wellFormed_of_readUntilError hread
  · exact ⟨formula.text, nest formula, fun options hexact hempty hdepth =>
      hformula.readUntilError_text hexact hempty hdepth⟩

theorem script_wellFormed :
    let formula : Formula :=
      [{ kind := .ordinary, nucleus := "", superscript := some [.symbol .ordinary "2" ⟨1, 2⟩]
         span := ⟨0, 2⟩ }]
    WellFormed formula ∧ ∃ source depth, ∀ options : ReadingOptions,
      options.fillMissing = false → (options.allowEmpty = true ∨ formula ≠ []) →
      depth ≤ options.maxDepth →
        ∃ found, readUntilError source options = .ok found ∧ found.alike formula = true := by
  intro formula
  have hread : readUntilError "^2" {} = .ok formula := by decide +kernel
  have hformula := readings_wellFormed.1 _ _ _ (.inl hread)
  exact ⟨hformula, readings_wellFormed.2 formula hformula⟩

end TexMath.Formula
