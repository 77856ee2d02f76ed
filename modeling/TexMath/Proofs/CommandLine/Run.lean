import TexMath.Proofs.CommandLine.Drawing
import TexMath.Proofs.Formula.Text
import TexMath.Proofs.Reading.Ranges
import TexMath.Proofs.Reading.RoundTrip
import TexMath.Proofs.Token.Joins
import Mathlib.Data.List.Forall2

/-!
# Outcomes of a run

A run that reads a formula ends well exactly when the formula has no errors, and otherwise reports
all of them or the first.  What it writes is a formula again, which a second run writes unchanged.
-/

namespace TexMath

variable {source : String} {options : ReadingOptions} {formula : Formula}

/-! ## The end of the last line -/

namespace Formula

theorem readUntilError_line (hexact : options.fillMissing = false)
    (h : readUntilError source options = .ok formula) :
    readUntilError (source ++ "\n") options = .ok formula := by
  obtain ⟨hempty, hdepth, lexemes, hitems, hrow⟩ := (readUntilError_eq_ok_iff hexact).mp h
  have hclear := significantItems_eq_lexemes_iff.mp ⟨lexemes, hitems⟩
  have hline : significantItems (source ++ "\n") = lexemes.map .lexeme := by
    have hjoined := @significantItems_line source "" hclear
    rwa [String.append_empty, show significantItems "" = [] from rfl, List.map_nil,
      List.append_nil, hitems] at hjoined
  exact (readUntilError_eq_ok_iff hexact).mpr ⟨hempty, hdepth, lexemes, hline, hrow⟩

theorem readAll_text_line (hexact : options.fillMissing = false)
    (h : readAll source options = .ok formula) :
    ∃ found, readAll (formula.text ++ "\n") options = .ok found ∧ found.text = formula.text := by
  have hread := readAll_eq_ok_iff.mp h
  obtain ⟨hempty, hdepth, -⟩ := (readUntilError_eq_ok_iff hexact).mp hread
  obtain ⟨found, hfound, halike⟩ :=
    (wellFormed_of_readUntilError hread).readUntilError_text hexact hempty hdepth
  have hline := readUntilError_line hexact hfound
  exact ⟨found, readAll_eq_ok_iff.mpr hline, text_eq_of_alike halike⟩

theorem ne_nil_of_readAll {errors : List ParseError}
    (h : readAll source options = .error errors) : errors ≠ [] := by
  obtain ⟨hne, rfl⟩ := readAll_eq_error_iff.mp h
  intro hnil
  have hperm := ParseError.byStart_perm (collect source options).errors
  rw [hnil] at hperm
  exact hne hperm.nil_eq.symm

end Formula

namespace CommandLine

open Formula

/-! ## Attempts -/

def reported (allErrors : Bool) (errors : List ParseError) : List ParseError :=
  if allErrors then errors else errors.take 1

theorem reported_subset (allErrors : Bool) (errors : List ParseError) :
    reported allErrors errors ⊆ errors := by
  unfold reported
  split
  · exact List.Subset.refl errors
  · exact List.take_subset 1 errors

theorem attempt_of_ok (allErrors : Bool) (h : readAll source options = .ok formula) :
    (attempt source options allErrors).outcome = .ok formula := by
  cases allErrors with
  | true => simpa [attempt] using h
  | false => simp [attempt, read_eq_ok_iff.mpr (readAll_eq_ok_iff.mp h)]

theorem attempt_of_error (allErrors : Bool) {errors : List ParseError}
    (h : readAll source options = .error errors) :
    (attempt source options allErrors).outcome = .error (reported allErrors errors) := by
  cases allErrors with
  | true => simpa [attempt, reported] using h
  | false =>
      cases hread : read source options with
      | ok formula =>
          rw [readAll_eq_ok_iff.mpr (read_eq_ok_iff.mp hread)] at h
          cases h
      | error error =>
          obtain ⟨rest, hall⟩ := readAll_of_read_error hread
          obtain rfl : error :: rest = errors := Except.error.inj (hall.symm.trans h)
          simp [attempt, reported, hread]

/-! ## Reports -/

variable {library : Library}

theorem Library.DrawsHeaders.headed {mark sourceName : String} {color : Bool}
    {errors : List ParseError} (h : library.DrawsHeaders mark sourceName source color)
    (herrors : errors ⊆ (collect source options).errors) :
    List.Forall₂ (Headed mark) (errors.map ParseError.message)
      (errors.map (library.report sourceName source color)) := by
  induction errors with
  | nil => exact .nil
  | cons error errors ih =>
      obtain ⟨hmem, hrest⟩ := List.cons_subset.mp herrors
      obtain ⟨slice, hcovers, -⟩ := covers_of_mem_collect_errors hmem
      obtain ⟨report, hdraw, hheaded⟩ := h error hcovers.bounds.1 hcovers.bounds.2
      have hreport : library.report sourceName source color error = report := by
        rw [Library.report, hdraw, Option.getD_some]
      exact .cons (hreport ▸ hheaded) (ih hrest)

/-! ## Runs that read a formula -/

/-- The source is the formula of the invocation, or the standard input where it has none. -/
def Invocation.Gives (invocation : Invocation) (input : ByteArray) (source : String) : Prop :=
  invocation.formula = some source ∨
    invocation.formula = none ∧ String.fromUTF8? input = some source

def Invocation.sourceName (invocation : Invocation) : String :=
  if invocation.formula.isSome then "<formula>" else "<stdin>"

variable {arguments : List String} {invocation : Invocation} {content : Except FileFault String}
  {input : ByteArray} {settings : Settings} {log : List LogLine} {errors : List ParseError}

theorem settingsOf_of_settings {path document : String}
    (hfile : invocation.settingsFile = some path)
    (hsettings : library.settings document = .ok settings) :
    library.settingsOf invocation (.ok document) = .ok (settings, [settingsLine path]) := by
  simp [Library.settingsOf, hfile, Library.loadSettings, hsettings, Except.map, Except.mapError]

theorem run_eq_answer (hasks : library.invocation arguments = .ok invocation)
    (hlist : invocation.listCommands = false)
    (hloads : library.settingsOf invocation content = .ok (settings, log))
    (hgives : invocation.Gives input source) :
    library.run arguments content input =
      library.answer invocation settings log invocation.sourceName source := by
  rw [Library.run, hasks]
  rcases hgives with hformula | ⟨hformula, hinput⟩
  · simp [Library.perform, hlist, hloads, hformula, Invocation.sourceName]
  · simp [Library.perform, hlist, hloads, hformula, hinput, Invocation.sourceName]

theorem answer_of_ok (sourceName : String) (h : readAll source settings.options = .ok formula) :
    library.answer invocation settings log sourceName source =
      { stdout := (if invocation.tree then outline formula else text formula) ++ "\n"
        stderr := logText invocation.verbosity
          (log ++ (attempt source settings.options
            (invocation.allErrors || settings.allErrors)).log) } := by
  simp [Library.answer, attempt_of_ok _ h]

theorem answer_of_error (sourceName : String)
    (h : readAll source settings.options = .error errors) :
    library.answer invocation settings log sourceName source =
      { code := 2
        stderr := logText invocation.verbosity
            (log ++ (attempt source settings.options
              (invocation.allErrors || settings.allErrors)).log) ++
          String.join ((reported (invocation.allErrors || settings.allErrors) errors).map
            (library.report sourceName source !invocation.noColor)) } := by
  simp only [Library.answer, attempt_of_error _ h]

/-- A run ends well if and only if its formula has no errors.  It writes the formula or else reports
the errors, all of them or the first, each under its message. -/
theorem run_outcome {mark : String} (hasks : library.invocation arguments = .ok invocation)
    (hlist : invocation.listCommands = false)
    (hloads : library.settingsOf invocation content = .ok (settings, log))
    (hgives : invocation.Gives input source)
    (hdraws : library.DrawsHeaders mark invocation.sourceName source !invocation.noColor) :
    let output := library.run arguments content input
    let allErrors := invocation.allErrors || settings.allErrors
    let logged := logText invocation.verbosity
      (log ++ (attempt source settings.options allErrors).log)
    (output.code = 0 ↔ ∃ formula, readAll source settings.options = .ok formula) ∧
    (∀ formula, readAll source settings.options = .ok formula →
      output.stdout = (if invocation.tree then outline formula else text formula) ++ "\n" ∧
        output.stderr = logged) ∧
    ∀ errors, readAll source settings.options = .error errors →
      output.code = 2 ∧ output.stdout = "" ∧ errors ≠ [] ∧
        ∃ reports, output.stderr = logged ++ String.join reports ∧
          List.Forall₂ (Headed mark)
            ((if allErrors then errors else errors.take 1).map ParseError.message) reports := by
  intro output allErrors logged
  have houtput : output =
      library.answer invocation settings log invocation.sourceName source :=
    run_eq_answer hasks hlist hloads hgives
  refine ⟨?_, fun formula h => ?_, fun errors h => ?_⟩
  · cases h : readAll source settings.options with
    | ok formula => simp [houtput, answer_of_ok _ h]
    | error errors => simp [houtput, answer_of_error _ h]
  · rw [houtput, answer_of_ok _ h]
    exact ⟨rfl, rfl⟩
  · rw [houtput, answer_of_error _ h]
    refine ⟨rfl, rfl, ne_nil_of_readAll h, _, rfl, ?_⟩
    exact hdraws.headed fun _ hmem => mem_collect_errors h (reported_subset _ _ hmem)

theorem run_reports_both :
    let output := Library.plain.run ["--no-color", "-c", "all.toml", "-f", "\x7d\\foo"]
      (.ok "all-errors = true") .empty
    output.code = 2 ∧ output.stdout = "" ∧
      ∃ reports, output.stderr = String.join reports ∧
        List.Forall₂ (Headed "Error: ")
          ["Unbalanced braces.", "Unknown command \"\\foo\"."] reports := by
  let invocation : Invocation :=
    { formula := some "\x7d\\foo", settingsFile := some "all.toml", noColor := true }
  have hasks : Library.plain.invocation ["--no-color", "-c", "all.toml", "-f", "\x7d\\foo"] =
      .ok invocation := by
    decide +kernel
  have hsettings : Library.plain.settings "all-errors = true" = .ok { allErrors := true } := by
    decide +kernel
  have herrors : readAll "\x7d\\foo" = .error
      [⟨.unbalancedBraces, ⟨0, 1⟩⟩, ⟨.unknownCommand "foo", ⟨1, 5⟩⟩] := by
    decide +kernel
  have hgives : invocation.Gives .empty "\x7d\\foo" := .inl rfl
  obtain ⟨hcode, hstdout, -, reports, hstderr, hheaded⟩ :=
    (run_outcome hasks rfl (settingsOf_of_settings rfl hsettings) hgives
      (Library.plain_drawsHeaders _ _ false)).2.2 _ herrors
  exact ⟨hcode, hstdout, reports, hstderr, hheaded⟩

/-! ## A run on its own output -/

structure Invocation.Filters (invocation : Invocation) (path : String) : Prop where
  settingsFile : invocation.settingsFile = some path
  tree : invocation.tree = false
  listCommands : invocation.listCommands = false

theorem fromUTF8?_toUTF8 (text : String) : String.fromUTF8? text.toUTF8 = some text :=
  dif_pos text.isValidUTF8

theorem run_own_output {again : List String} {invocation' : Invocation} {path document : String}
    (hasks : library.invocation arguments = .ok invocation) (hfilters : invocation.Filters path)
    (hformula : invocation.formula = some source)
    (hasks' : library.invocation again = .ok invocation') (hfilters' : invocation'.Filters path)
    (hformula' : invocation'.formula = none)
    (hsettings : library.settings document = .ok settings)
    (hexact : settings.options.fillMissing = false)
    (hcode : (library.run arguments (.ok document) input).code = 0) :
    let written := (library.run arguments (.ok document) input).stdout
    (library.run again (.ok document) written.toUTF8).code = 0 ∧
      (library.run again (.ok document) written.toUTF8).stdout = written := by
  intro written
  have hloads := settingsOf_of_settings hfilters.settingsFile hsettings
  have hrun : library.run arguments (.ok document) input =
      library.answer invocation settings [settingsLine path] invocation.sourceName source :=
    run_eq_answer hasks hfilters.listCommands hloads (.inl hformula)
  rw [hrun] at hcode
  cases hread : readAll source settings.options with
  | error errors =>
      rw [answer_of_error _ hread] at hcode
      cases hcode
  | ok formula =>
      have hwritten : written = formula.text ++ "\n" := by
        simp [written, hrun, answer_of_ok _ hread, hfilters.tree]
      obtain ⟨found, hfound, htext⟩ := readAll_text_line hexact hread
      rw [← hwritten] at hfound
      have hloads' := settingsOf_of_settings hfilters'.settingsFile hsettings
      have hrun' := run_eq_answer hasks' hfilters'.listCommands hloads'
        (.inr ⟨hformula', fromUTF8?_toUTF8 written⟩)
      rw [hrun', answer_of_ok _ hfound]
      simp [hfilters'.tree, htext, hwritten]

theorem control_space_written_again :
    let library := Library.plain
    let written := (library.run ["-c", "deep.toml", "-f", "\\le\\ "]
      (.ok "max-nesting-depth = 3") .empty).stdout
    written = "\\leq\\ \n" ∧
      (library.run ["-c", "deep.toml"] (.ok "max-nesting-depth = 3") written.toUTF8).code = 0 ∧
      (library.run ["-c", "deep.toml"] (.ok "max-nesting-depth = 3") written.toUTF8).stdout =
        written := by
  intro library written
  have hasks : library.invocation ["-c", "deep.toml", "-f", "\\le\\ "] =
      .ok { formula := some "\\le\\ ", settingsFile := some "deep.toml" } := by
    decide +kernel
  have hasks' : library.invocation ["-c", "deep.toml"] =
      .ok { settingsFile := some "deep.toml" } := by
    decide +kernel
  have hsettings : library.settings "max-nesting-depth = 3" =
      .ok { options := { maxDepth := 3 } } := by
    decide +kernel
  have hcode : (library.run ["-c", "deep.toml", "-f", "\\le\\ "]
      (.ok "max-nesting-depth = 3") .empty).code = 0 := by
    decide +kernel
  exact ⟨by decide +kernel, run_own_output hasks ⟨rfl, rfl, rfl⟩ rfl hasks' ⟨rfl, rfl, rfl⟩ rfl
    hsettings rfl hcode⟩

end CommandLine

end TexMath
