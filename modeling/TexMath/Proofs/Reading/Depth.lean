import TexMath.Proofs.Reading.Options
import TexMath.Proofs.Reading.RoundTrip

/-!
# The limit on the depth

How deep a formula is nested decides under which limits it is read.  Where nothing is filled in,
these are exactly the limits that its nesting keeps.  A placeholder takes no level when it is filled
in and one when it is read back, so that a formula with placeholders may be nested deeper than the
limit under which it was read.
-/

namespace TexMath.Formula

variable {source : String} {options : ReadingOptions} {formula : Formula} {depth : Nat}

theorem nest_le_of_readAll (hexact : options.fillMissing = false)
    (h : readAll source options = .ok formula) : nest formula ≤ options.maxDepth :=
  ((readUntilError_eq_ok_iff hexact).mp (readAll_eq_ok_iff.mp h)).2.1

theorem readAll_of_lt_nest (hexact : options.fillMissing = false)
    (h : readAll source options = .ok formula) (hlt : depth < nest formula) :
    ∃ place, readAll source { options with maxDepth := depth } =
      .error [⟨.nestingTooDeep, place⟩] := by
  have hle := nest_le_of_readAll hexact h
  rcases readAll_of_maxDepth_le h (Nat.le_of_lt (Nat.lt_of_lt_of_le hlt hle)) with hread | herror
  · have hdepth : nest formula ≤ depth :=
      @nest_le_of_readAll source { options with maxDepth := depth } formula hexact hread
    omega
  · exact herror

theorem read_iff_nest_le (source : String) (options : ReadingOptions) (formula : Formula)
    (depth : Nat) (hexact : options.fillMissing = false)
    (h : read source options = .ok formula) :
    (read source { options with maxDepth := depth } = .ok formula ↔ nest formula ≤ depth) ∧
    (readAll source { options with maxDepth := depth } = .ok formula ↔ nest formula ≤ depth) ∧
    (depth < nest formula → ∃ place, readAll source { options with maxDepth := depth } =
      .error [⟨.nestingTooDeep, place⟩]) := by
  rw [read_eq_ok_iff] at h
  obtain ⟨hempty, -, hderived⟩ := (readUntilError_eq_ok_iff hexact).mp h
  have hiff : readUntilError source { options with maxDepth := depth } = .ok formula ↔
      nest formula ≤ depth := by
    rw [@readUntilError_eq_ok_iff source { options with maxDepth := depth } formula hexact]
    exact ⟨fun hread => hread.2.1, fun hdepth => ⟨hempty, hdepth, hderived⟩⟩
  rw [read_eq_ok_iff, readAll_eq_ok_iff]
  exact ⟨hiff, hiff, readAll_of_lt_nest hexact (readAll_eq_ok_iff.mpr h)⟩

theorem nested_table_depths :
    let source := "\\sqrt\\begin\x7bmatrix\x7d\\end\x7bmatrix\x7d"
    ∃ formula, read source {} = .ok formula ∧
      (read source { maxDepth := 2 } = .ok formula ↔ nest formula ≤ 2) ∧
      ∃ place, readAll source { maxDepth := 1 } = .error [⟨.nestingTooDeep, place⟩] := by
  intro source
  have hread : read source {} = .ok
      [{ kind := .radical, nucleus := "√"
         arguments := [[{ kind := .table, nucleus := "matrix", span := ⟨5, 31⟩ }]]
         span := ⟨0, 31⟩ }] := by
    decide +kernel
  exact ⟨_, hread, (read_iff_nest_le source {} _ 2 rfl hread).1,
    (read_iff_nest_le source {} _ 1 rfl hread).2.2 (by decide)⟩

/-! ## Placeholders -/

theorem allowEmpty_or_ne_nil (h : read source options = .ok formula) :
    options.allowEmpty = true ∨ formula ≠ [] := by
  obtain ⟨s, hrun⟩ := readUntilError_eq_ok.mp (read_eq_ok_iff.mp h)
  exact ((root_eq_ok rfl).mp hrun).2

/-- Canonical text lacks no argument, so that filling in makes no difference to it. -/
theorem WellFormed.readUntilError_text_filled (h : WellFormed formula)
    (hempty : options.allowEmpty = true ∨ formula ≠ []) (hdepth : nest formula ≤ options.maxDepth) :
    ∃ found, readUntilError formula.text options = .ok found ∧ found.alike formula = true := by
  obtain ⟨found, hread, halike⟩ : ∃ found,
      readUntilError formula.text { options with fillMissing := false } = .ok found ∧
        found.alike formula = true :=
    h.readUntilError_text rfl hempty hdepth
  exact ⟨found, readUntilError_fillMissing hread (by simp), halike⟩

theorem WellFormed.readAll_text_of_lt_nest (h : WellFormed formula)
    (hempty : options.allowEmpty = true ∨ formula ≠ []) (hlt : options.maxDepth < nest formula) :
    ∃ place, readAll formula.text options = .error [⟨.nestingTooDeep, place⟩] := by
  let deep : ReadingOptions := { options with maxDepth := nest formula }
  obtain ⟨found, hfound, halike⟩ : ∃ found,
      readUntilError formula.text { deep with fillMissing := false } = .ok found ∧
        found.alike formula = true :=
    h.readUntilError_text rfl hempty (Nat.le_refl _)
  have hnest : nest found = nest formula := nest_eq_of_erase ((alike_iff _ _).mp halike)
  have hbreaks : options.maxDepth < nest found := by omega
  obtain ⟨place, hall⟩ := readAll_of_lt_nest rfl (readAll_eq_ok_iff.mpr hfound) hbreaks
  -- Under the limit both readings stop at the same place, whether or not they fill in.
  obtain ⟨error, hexact, hcause⟩ : ∃ error,
      readUntilError formula.text { options with fillMissing := false } = .error error ∧
        error.cause = .nestingTooDeep := by
    cases hread : readUntilError formula.text { options with fillMissing := false } with
    | ok other =>
        have hother := readAll_eq_ok_iff.mpr hread
        rw [hall] at hother
        cases hother
    | error error =>
        obtain ⟨lowest, rest, hlowest, -, hmem⟩ := readAll_of_error hread
        rw [hall, Except.error.injEq] at hlowest
        rw [← hlowest, List.mem_singleton] at hmem
        exact ⟨error, rfl, by rw [hmem]⟩
  have hfilled : readUntilError formula.text options = .error error :=
    readUntilError_fillMissing hexact (by simp [hcause])
  have hdeep : readUntilError formula.text deep = .ok found :=
    readUntilError_fillMissing hfound (by simp)
  rcases readAll_of_maxDepth_le (readAll_eq_ok_iff.mpr hdeep) (Nat.le_of_lt hlt) with hread | hread
  · rw [readAll_eq_ok_iff] at hread
    rw [hfilled] at hread
    cases hread
  · exact hread

theorem read_text_iff_nest_le (source : String) (options : ReadingOptions) (formula : Formula)
    (h : read source options = .ok formula) :
    ((∃ found, read formula.text options = .ok found ∧ found.alike formula = true) ↔
      nest formula ≤ options.maxDepth) ∧
    (options.maxDepth < nest formula →
      ∃ place, readAll formula.text options = .error [⟨.nestingTooDeep, place⟩]) := by
  have hformula := wellFormed_of_readUntilError (read_eq_ok_iff.mp h)
  have hempty := allowEmpty_or_ne_nil h
  have hdeep := hformula.readAll_text_of_lt_nest hempty
  simp only [read_eq_ok_iff]
  refine ⟨⟨?_, hformula.readUntilError_text_filled hempty⟩, hdeep⟩
  rintro ⟨found, hread, -⟩
  by_contra hlt
  obtain ⟨place, herror⟩ := hdeep (Nat.lt_of_not_le hlt)
  rw [readAll_eq_ok_iff.mpr hread] at herror
  cases herror

theorem filled_fraction_text :
    ∃ formula, read "\\frac" { maxDepth := 1, fillMissing := true } = .ok formula ∧
      ∃ found, read formula.text { maxDepth := 1, fillMissing := true } = .ok found ∧
        found.alike formula = true := by
  have hread : read "\\frac" { maxDepth := 1, fillMissing := true } = .ok
      [{ kind := .fraction true, nucleus := ""
         arguments := [[.symbol .placeholder "□" ⟨5, 5⟩], [.symbol .placeholder "□" ⟨5, 5⟩]]
         span := ⟨0, 5⟩ }] := by
    decide +kernel
  exact ⟨_, hread, (read_text_iff_nest_le _ _ _ hread).1.mpr (by decide)⟩

theorem filled_fraction_too_deep :
    let options : ReadingOptions := { maxDepth := 0, fillMissing := true }
    let formula : Formula :=
      [{ kind := .fraction true, nucleus := ""
         arguments := [[.symbol .placeholder "□" ⟨5, 5⟩], [.symbol .placeholder "□" ⟨5, 5⟩]]
         span := ⟨0, 5⟩ }]
    read "\\frac" options = .ok formula ∧
      formula.text = "\\frac\x7b\\square\x7d\x7b\\square\x7d" ∧
      read formula.text options = .error ⟨.nestingTooDeep, ⟨5, 6⟩⟩ := by
  decide +kernel

end TexMath.Formula
