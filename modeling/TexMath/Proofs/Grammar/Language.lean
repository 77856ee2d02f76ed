import TexMath.Proofs.Grammar.Acceptance
import TexMath.Proofs.Grammar.Relocation
import TexMath.Proofs.Grammar.Size
import TexMath.Proofs.Grammar.Soundness
import TexMath.Proofs.Reading.Errors
import TexMath.Proofs.Token.Items

/-!
# The language of the reading

A source is read as a formula exactly when its significant items are lexemes from which the grammar
derives that formula, and the formula is nested no deeper than the options allow.
-/

namespace TexMath

open Grammar Reading

variable {source : String} {options : ReadingOptions} {formula : Formula}

theorem Context.stops_iff_of_groups {context : Context} (hgroups : context.groups = [])
    {items : List Item} (hitems : ∀ lexeme, .lexeme lexeme ∈ items → lexeme.token ≠ .sourceEnd) :
    context.Stops items ↔ items = [] := by
  constructor
  · rintro ⟨hclear, hcloses⟩
    cases items with
    | nil => rfl
    | cons item items =>
        cases item with
        | fault error => cases hclear
        | lexeme lexeme =>
            have hne := hitems lexeme List.mem_cons_self
            simp only [upcoming, closes, hgroups] at hcloses
            split at hcloses <;> simp_all
  · rintro rfl
    exact ⟨rfl, rfl⟩

namespace Formula

theorem root_eq_ok {readers : Readers} {context : Context} {s s' : State}
    (first : context.mode = .firstError) :
    readers.root context s = .ok formula s' ↔
      readers.row context [] s = .ok formula s' ∧
        (context.options.allowEmpty = true ∨ formula ≠ []) := by
  constructor
  · intro h
    obtain ⟨found, middle, hread, h⟩ := bind_eq_ok.mp h
    dsimp only at h
    split at h
    · exact absurd h (Context.report_bind_ne_ok first _ _ _)
    · rename_i hempty
      obtain ⟨rfl, rfl⟩ := pure_eq_ok.mp h
      exact ⟨hread, by grind⟩
  · rintro ⟨hread, hempty⟩
    exact Readers.root_of_row_ok hread hempty

theorem readUntilError_eq_ok_iff (hexact : options.fillMissing = false) :
    readUntilError source options = .ok formula ↔
      (options.allowEmpty = true ∨ formula ≠ []) ∧ nest formula ≤ options.maxDepth ∧
        ∃ lexemes, significantItems source = lexemes.map .lexeme ∧ Row false lexemes formula := by
  rw [readUntilError_eq_ok]
  generalize hcontext :
    ({ options, mode := .firstError, sourceEnd := source.utf8ByteSize } : Context) = context
  have first : context.mode = .firstError := by rw [← hcontext]
  have strict : context.Strict := ⟨first, by rw [← hcontext]; exact hexact⟩
  have hroom : context.room = options.maxDepth := by rw [← hcontext]; rfl
  have hindex : context.inIndex = false := by rw [← hcontext]; rfl
  have hgroups : context.groups = [] := by rw [← hcontext]
  obtain ⟨bound, hbound⟩ : ∃ bound, bound = (significantItems source).length + 1 := ⟨_, rfl⟩
  have hlength : (significantItems source).length < bound := by omega
  have hrun : ∀ s', runReading .firstError options source = .ok formula s' ↔
      (Readers.upTo bound).row context []
        { rest := significantItems source } = .ok formula s' ∧
        (options.allowEmpty = true ∨ formula ≠ []) := by
    intro s'
    rw [← hcontext] at first ⊢
    rw [hbound]
    exact root_eq_ok first
  simp only [hrun]
  constructor
  · rintro ⟨s', hread, hempty⟩
    obtain ⟨lexemes, htakes, hsteps, hstops, hnest⟩ :=
      (Readers.sound_upTo bound).row context strict
        (fun item hitem => isSignificant_of_mem_significantItems hitem) hlength hread
    have hitems := htakes.rest
    dsimp only at hitems
    have hne : ∀ lexeme, .lexeme lexeme ∈ s'.rest → lexeme.token ≠ .sourceEnd := by
      intro lexeme hlexeme
      refine @token_ne_of_mem_significantItems source lexeme ?_
      rw [hitems]
      exact List.mem_append_right _ hlexeme
    rw [(Context.stops_iff_of_groups hgroups hne).mp hstops, List.append_nil] at hitems
    rw [nest_nil, hroom] at hnest
    rw [hindex] at hsteps
    exact ⟨hempty, by omega, lexemes, hitems, row_iff_steps.mpr hsteps⟩
  · rintro ⟨hempty, hnest, lexemes, hitems, hrow⟩
    have htakes : State.Takes { rest := significantItems source } lexemes
        { rest := [], lastEnd := Lexeme.endOf 0 lexemes } := ⟨by simp [hitems], rfl, rfl⟩
    have hread := (Readers.accepts_upTo bound).row context hlength (hindex ▸ hrow.steps) htakes
      ((Context.stops_iff_of_groups hgroups (by simp)).mpr rfl)
      (by rw [nest_reverse, hroom]; exact hnest)
    rw [List.reverse_reverse] at hread
    exact ⟨_, hread, hempty⟩

/-- With room for every token, the reading accepts exactly what the grammar derives, and reads it
with the spans of the derivation. -/
theorem readUntilError_iff_derives (source : String) (options : ReadingOptions) (formula : Formula)
    (hexact : options.fillMissing = false) (hempty : options.allowEmpty = true)
    (hdepth : source.utf8ByteSize ≤ options.maxDepth) :
    (readUntilError source options = .ok formula ↔
      ∃ lexemes, significantItems source = lexemes.map .lexeme ∧ Row false lexemes formula) ∧
    ((∃ found, readUntilError source options = .ok found ∧ found.alike formula = true) ↔
      (∀ error, .fault error ∉ items source) ∧ Derives (tokens source) formula) := by
  have hexactly : ∀ found, readUntilError source options = .ok found ↔
      ∃ lexemes, significantItems source = lexemes.map .lexeme ∧ Row false lexemes found := by
    intro found
    rw [readUntilError_eq_ok_iff hexact]
    constructor
    · rintro ⟨-, -, h⟩
      exact h
    · rintro ⟨lexemes, hitems, hrow⟩
      have hlength := length_significantItems_le source
      rw [hitems, List.length_map] at hlength
      exact ⟨.inl hempty, Nat.le_trans hrow.nest_le (Nat.le_trans hlength hdepth),
        lexemes, hitems, hrow⟩
  refine ⟨hexactly formula, ?_⟩
  rw [← significantItems_eq_lexemes_iff]
  simp only [hexactly, alike_iff]
  constructor
  · rintro ⟨found, ⟨lexemes, hitems, hrow⟩, hfound⟩
    refine ⟨⟨lexemes, hitems⟩, ?_⟩
    rw [tokens_of_significantItems hitems]
    exact ⟨lexemes, found, rfl, hrow, hfound⟩
  · rintro ⟨⟨lexemes, hitems⟩, hderives⟩
    rw [tokens_of_significantItems hitems, derives_iff] at hderives
    obtain ⟨found, hrow, hfound⟩ := hderives
    exact ⟨found, ⟨lexemes, hitems, hrow⟩, hfound⟩

theorem root_derives :
    (∀ error, .fault error ∉ items "\\sqrt[3]\x7b]\x7d") ∧
      Derives (tokens "\\sqrt[3]\x7b]\x7d")
        [{ kind := .radical, nucleus := "√"
           arguments := [[.symbol .closing "]"], [.symbol .ordinary "3"]] }] := by
  have hread : readUntilError "\\sqrt[3]\x7b]\x7d" = .ok
      [{ kind := .radical, nucleus := "√"
         arguments := [[.symbol .closing "]" ⟨9, 10⟩], [.symbol .ordinary "3" ⟨6, 7⟩]]
         span := ⟨0, 11⟩ }] := by
    decide +kernel
  exact (readUntilError_iff_derives "\\sqrt[3]\x7b]\x7d" {} _ rfl rfl (by decide)).2.mp
    ⟨_, hread, (alike_iff _ _).mpr rfl⟩

end Formula

end TexMath
