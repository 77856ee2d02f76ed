import TexMath.Atom.Equality
import TexMath.Proofs.Reading.Account
import TexMath.Proofs.Reading.Errors

/-!
# Nothing of a source is left unread

A reading that records errors goes on to the end of its source, unless the source is nested too
deep.  Every text that forms no token is then among the errors, and once only, because what else is
reported is about a lexeme or about the source as a whole.
-/

namespace TexMath

variable {source : String} {options : ReadingOptions} {error : ParseError}

/-! ## The errors of rules and of text that forms no token -/

theorem TakesArgument.ne_environment {command : String} (h : TakesArgument command) :
    ¬(command = "\\begin" ∨ command = "\\end") := by
  rcases h with ⟨which, rfl⟩ | ⟨name, template, hfind, rfl⟩
  · cases which <;> decide
  · have hbegin : Command.find? "begin" = none := by decide +kernel
    have hend : Command.find? "end" = none := by decide +kernel
    rintro (hname | hname)
    · obtain rfl : name = "begin" := String.append_right_inj "\\" |>.mp hname
      simp [hbegin] at hfind
    · obtain rfl : name = "end" := String.append_right_inj "\\" |>.mp hname
      simp [hend] at hfind

namespace ParseError.Sited

variable {items : List Item} {size : Nat}

theorem cause_ne (h : error.Sited items size) : error.cause ≠ .nestingTooDeep := by
  cases h with
  | lexeme _ hcause =>
      rintro rfl
      cases hcause
  | empty => simp

theorem notMem_faults (h : error.Sited (significantItems source) size) : error ∉ faults source := by
  intro hfault
  rw [mem_faults] at hfault
  obtain ⟨text, rest, -, hspelling, -⟩ := covers_of_fault_mem hfault
  cases h with
  | empty => cases hspelling
  | lexeme hmet hcause =>
      rcases hmet with hmem | rfl
      · -- No lexeme starts where text stands that forms none.
        have hitem := (List.mem_filter.mp hmem).1
        cases eq_of_start_eq hfault hitem rfl
      · -- Only a missing argument is reported at the end of the source.
        cases hcause with
        | missingArgument htakes =>
            cases hspelling with
            | missingName hcommand => exact htakes.ne_environment hcommand
            | missingNameAtEnd hcommand => exact htakes.ne_environment hcommand
        | _ => simp_all [Lexeme.ending, Token.script?]

end ParseError.Sited

theorem cause_ne_of_mem_faults (h : error ∈ faults source) : error.cause ≠ .nestingTooDeep := by
  obtain ⟨text, rest, -, hspelling, -⟩ := covers_of_fault_mem (mem_faults.mp h)
  intro hcause
  rw [hcause] at hspelling
  cases hspelling

/-! ## What is reported of a whole source -/

theorem State.Accounts.mem_reported {s : State} {size : Nat}
    (h : State.Accounts { rest := significantItems source } size s) (herror : error ∈ s.reported) :
    error ∈ faults source ∨ error.Sited (significantItems source) size := by
  obtain @⟨front, own, hitems, hown, hreported⟩ := h
  have hmem := hreported.mem_iff.mp herror
  rw [List.append_nil, List.mem_append] at hmem
  refine hmem.imp (fun hfault => ?_) (hown error)
  have hsplit : significantItems source = front ++ s.rest := hitems
  rw [← filterMap_fault?_significantItems, hsplit, List.filterMap_append]
  exact List.mem_append_left _ hfault

theorem State.Accounts.perm_faults {s : State} {size : Nat}
    (h : State.Accounts { rest := significantItems source } size s) (hrest : s.rest = []) :
    ∃ own, (∀ error ∈ own, error.Sited (significantItems source) size) ∧
      s.reported.Perm (faults source ++ own) := by
  obtain @⟨front, own, hitems, hown, hreported⟩ := h
  have hfront : significantItems source = front := by simpa [hrest] using hitems
  refine ⟨own, hown, ?_⟩
  rwa [← hfront, List.append_nil, filterMap_fault?_significantItems] at hreported

theorem row_of_runReading {mode : ReadingMode} {formula : Formula} {s : State}
    (h : runReading mode options source = .ok formula s) :
    ∃ s, (Readers.upTo ((significantItems source).length + 1)).row
      { options, mode, sourceEnd := source.utf8ByteSize, groups := [], depth := 0 } []
      { rest := significantItems source } = .ok formula s ∧ s.rest = [] := by
  have hrest := (runReading_ok h).1
  obtain ⟨found, middle, hrow, hlast⟩ := Reading.bind_eq_ok.mp h
  split at hlast
  · obtain ⟨_, behind, hreport, hpure⟩ := Reading.bind_eq_ok.mp hlast
    obtain ⟨rfl, rfl⟩ := Reading.pure_eq_ok.mp hpure
    exact ⟨middle, hrow, by rw [← Context.report_rest hreport, hrest]⟩
  · obtain ⟨rfl, rfl⟩ := Reading.pure_eq_ok.mp hlast
    exact ⟨middle, hrow, hrest⟩

namespace Formula

theorem collect_outcome_eq_ok {formula : Formula}
    (h : (collect source options).outcome = .ok formula) :
    ∃ s, runReading .collect options source = .ok formula s ∧
      (collect source options).errors = s.reported.reverse := by
  unfold collect at h ⊢
  split at h
  · rename_i found s hrun
    cases h
    exact ⟨s, hrun, rfl⟩
  · cases h

theorem collect_outcome_eq_error (h : (collect source options).outcome = .error error) :
    ∃ l : Lexeme, l.MetIn (significantItems source) source.utf8ByteSize ∧
      error = ⟨.nestingTooDeep, l.span⟩ := by
  unfold collect at h
  split at h
  · cases h
  · rename_i found s hrun
    cases h
    exact (runReading_error hrun).2

theorem mem_collect_reported (h : error ∈ (collect source options).reported) :
    error ∈ faults source ∨ error.Sited (significantItems source) source.utf8ByteSize := by
  unfold collect at h
  split at h
  · rename_i found s hrun
    exact (runReading_ok hrun).2.mem_reported (List.mem_reverse.mp h)
  · rename_i found s hrun
    exact (runReading_error hrun).1.mem_reported (List.mem_reverse.mp h)

theorem notMem_items_of_read {formula : Formula} (h : read source options = .ok formula) :
    ∀ error, .fault error ∉ items source := by
  obtain ⟨s, hrun⟩ := readUntilError_eq_ok.mp (read_eq_ok_iff.mp h)
  obtain ⟨hcollect, hreported⟩ := runReading_collect_of_ok hrun
  obtain ⟨hrest, haccounts⟩ := runReading_ok hcollect
  obtain ⟨own, -, hperm⟩ := haccounts.perm_faults hrest
  rw [hreported, List.nil_perm, List.append_eq_nil_iff] at hperm
  intro error herror
  rw [← mem_faults, hperm.1] at herror
  cases herror

theorem count_fault_of_collect {formula : Formula}
    (h : (collect source options).outcome = .ok formula) {fault : ParseError}
    (hfault : fault ∈ faults source) :
    ∃ errors, readAll source options = .error errors ∧ errors.count fault = 1 := by
  obtain ⟨s, hrun, herrors⟩ := collect_outcome_eq_ok h
  obtain ⟨hrest, haccounts⟩ := runReading_ok hrun
  obtain ⟨own, hown, hperm⟩ := haccounts.perm_faults hrest
  have hcount : s.reported.count fault = 1 := by
    rw [hperm.count_eq, List.count_append, List.count_eq_one_of_mem (faults_nodup source) hfault,
      List.count_eq_zero.mpr fun hmem => (hown fault hmem).notMem_faults hfault]
  have hne : (collect source options).errors ≠ [] := by
    rw [herrors]
    intro hnil
    rw [List.reverse_eq_nil_iff.mp hnil] at hcount
    cases hcount
  refine ⟨_, readAll_eq_error_iff.mpr ⟨hne, rfl⟩, ?_⟩
  rw [(ParseError.byStart_perm _).count_eq, herrors, (List.reverse_perm _).count_eq, hcount]

end Formula

end TexMath
