import TexMath.Proofs.Reading.Modes
import Mathlib.Data.List.Sort

/-!
# The errors of a failed reading

A reading fails in one mode exactly when it fails in the other.  The error at which the first mode
stops is the first that the second one hits, and the errors of the second are given in the order of
their offsets, so that the lowest of them comes first.
-/

namespace TexMath

namespace ParseError

/-! ## Errors by offset -/

theorem insert_eq_orderedInsert (error : ParseError) (errors : List ParseError) :
    insert error errors =
      errors.orderedInsert (fun a b => a.span.start ≤ b.span.start) error := by
  induction errors with
  | nil => rfl
  | cons first rest ih => simp only [insert, ih, List.orderedInsert_cons]

theorem byStart_eq_insertionSort (errors : List ParseError) :
    byStart errors = errors.insertionSort fun a b => a.span.start ≤ b.span.start := by
  unfold byStart
  induction errors with
  | nil => rfl
  | cons error errors ih =>
      rw [List.foldr_cons, ih, insert_eq_orderedInsert, List.insertionSort_cons]

theorem byStart_perm (errors : List ParseError) : (byStart errors).Perm errors := by
  rw [byStart_eq_insertionSort]
  exact List.perm_insertionSort _ errors

theorem byStart_pairwise (errors : List ParseError) :
    (byStart errors).Pairwise fun a b => a.span.start ≤ b.span.start := by
  have total : Std.Total fun a b : ParseError => a.span.start ≤ b.span.start :=
    ⟨fun a b => Nat.le_total a.span.start b.span.start⟩
  have trans : IsTrans ParseError fun a b => a.span.start ≤ b.span.start :=
    ⟨fun a b c => Nat.le_trans⟩
  rw [byStart_eq_insertionSort]
  exact List.pairwise_insertionSort _ errors

theorem byStart_of_pairwise {errors : List ParseError}
    (h : errors.Pairwise fun a b => a.span.start ≤ b.span.start) : byStart errors = errors := by
  rw [byStart_eq_insertionSort]
  exact h.insertionSort_eq

end ParseError

/-! ## One source read in two modes -/

variable (source : String) (options : ReadingOptions)

theorem root_agrees (bound : Nat) :
    Reading.Agrees
      ((Readers.upTo bound).root
        { options, mode := .firstError, sourceEnd := source.utf8ByteSize })
      ((Readers.upTo bound).root
        { options, mode := .collect, sourceEnd := source.utf8ByteSize }) :=
  Reading.Agrees.simulation.root bound
    ⟨{ options, mode := .firstError, sourceEnd := source.utf8ByteSize }, rfl, rfl⟩

variable {source options}

theorem runReading_collect_of_ok {formula : Formula} {s : State}
    (h : runReading .firstError options source = .ok formula s) :
    runReading .collect options source = .ok formula s ∧ s.reported = [] :=
  (root_agrees source options _).of_ok h

theorem runReading_collect_of_error {error : ParseError} {s : State}
    (h : runReading .firstError options source = .error error s) :
    [error] <:+ Reading.hit (runReading .collect options source) :=
  (root_agrees source options _).of_error h

namespace Formula

theorem collect_errors :
    (collect source options).errors =
      (Reading.hit (runReading .collect options source)).reverse := by
  unfold collect
  split
  · rename_i formula s hrun
    rw [hrun]
    rfl
  · rename_i error s hrun
    rw [hrun]
    simp [Collected.errors, Reading.hit]

theorem readAll_eq_error_iff {errors : List ParseError} :
    readAll source options = .error errors ↔
      (collect source options).errors ≠ [] ∧
        ParseError.byStart (collect source options).errors = errors := by
  unfold readAll
  generalize collect source options = collected
  rcases collected with ⟨_ | ⟨first, reported⟩, error | formula⟩ <;> simp [Collected.errors]

theorem readAll_of_reported {formula : Formula} {s : State} {errors : List ParseError}
    (h : runReading .collect options source = .ok formula s)
    (hreported : s.reported.reverse = errors) (hne : errors ≠ [])
    (hsorted : errors.Pairwise fun a b => a.span.start ≤ b.span.start) :
    readAll source options = .error errors := by
  have hcollect : (collect source options).errors = errors := by
    rw [collect_errors, h]
    exact hreported
  rw [readAll_eq_error_iff, hcollect]
  exact ⟨hne, ParseError.byStart_of_pairwise hsorted⟩

theorem readUntilError_eq_ok {formula : Formula} :
    readUntilError source options = .ok formula ↔
      ∃ s, runReading .firstError options source = .ok formula s := by
  unfold readUntilError
  split <;> simp_all

theorem readUntilError_eq_error {error : ParseError} :
    readUntilError source options = .error error ↔
      ∃ s, runReading .firstError options source = .error error s := by
  unfold readUntilError
  split <;> simp_all

theorem head?_collect_errors {error : ParseError}
    (h : readUntilError source options = .error error) :
    (collect source options).errors.head? = some error := by
  obtain ⟨s, hrun⟩ := readUntilError_eq_error.mp h
  obtain ⟨later, hhit⟩ := runReading_collect_of_error hrun
  rw [collect_errors, ← hhit]
  simp

theorem readAll_of_readUntilError_ok {formula : Formula}
    (h : readUntilError source options = .ok formula) :
    readAll source options = .ok formula := by
  obtain ⟨s, hrun⟩ := readUntilError_eq_ok.mp h
  obtain ⟨hcollect, hreported⟩ := runReading_collect_of_ok hrun
  simp [readAll, collect, hcollect, hreported]

theorem readAll_of_readUntilError_error {error : ParseError}
    (h : readUntilError source options = .error error) :
    readAll source options = .error (ParseError.byStart (collect source options).errors) := by
  have hhead := head?_collect_errors h
  unfold readAll
  split
  · rename_i formula hcollect
    rw [hcollect] at hhead
    cases hhead
  · rfl

theorem readAll_eq_ok_iff {formula : Formula} :
    readAll source options = .ok formula ↔ readUntilError source options = .ok formula := by
  constructor
  · intro h
    cases hfirst : readUntilError source options with
    | ok other =>
        rw [readAll_of_readUntilError_ok hfirst] at h
        cases h
        rfl
    | error error =>
        rw [readAll_of_readUntilError_error hfirst] at h
        cases h
  · exact readAll_of_readUntilError_ok

theorem readAll_of_error {error : ParseError}
    (h : readUntilError source options = .error error) :
    ∃ lowest rest, readAll source options = .error (lowest :: rest) ∧
      read source options = .error lowest ∧ error ∈ lowest :: rest := by
  have hmem : error ∈ ParseError.byStart (collect source options).errors :=
    (ParseError.byStart_perm _).mem_iff.mpr (List.mem_of_mem_head? (head?_collect_errors h))
  have hall := readAll_of_readUntilError_error h
  cases hsorted : ParseError.byStart (collect source options).errors with
  | nil =>
      rw [hsorted] at hmem
      cases hmem
  | cons lowest rest =>
      rw [hsorted] at hall hmem
      refine ⟨lowest, rest, hall, ?_, hmem⟩
      simp [read, h, hall]

theorem read_eq_ok_iff {formula : Formula} :
    read source options = .ok formula ↔ readUntilError source options = .ok formula := by
  cases hfirst : readUntilError source options with
  | ok other => simp [read, hfirst]
  | error error =>
      obtain ⟨lowest, rest, -, hread, -⟩ := readAll_of_error hfirst
      simp [hread]

theorem readAll_of_read_error {error : ParseError} (h : read source options = .error error) :
    ∃ rest, readAll source options = .error (error :: rest) := by
  cases hfirst : readUntilError source options with
  | ok formula =>
      rw [read_eq_ok_iff.mpr hfirst] at h
      cases h
  | error first =>
      obtain ⟨lowest, rest, hall, hread, -⟩ := readAll_of_error hfirst
      rw [h] at hread
      cases hread
      exact ⟨rest, hall⟩

theorem mem_collect_errors {errors : List ParseError} {error : ParseError}
    (h : readAll source options = .error errors) (hmem : error ∈ errors) :
    error ∈ (collect source options).errors := by
  obtain ⟨-, rfl⟩ := readAll_eq_error_iff.mp h
  exact (ParseError.byStart_perm _).mem_iff.mp hmem

theorem mem_collect_errors_of_read {error : ParseError} (h : read source options = .error error) :
    error ∈ (collect source options).errors := by
  obtain ⟨rest, hall⟩ := readAll_of_read_error h
  exact mem_collect_errors hall List.mem_cons_self

theorem readings_agree (source : String) (options : ReadingOptions) :
    (∀ formula, readUntilError source options = .ok formula ↔
      readAll source options = .ok formula) ∧
    (∀ error, readUntilError source options = .error error →
      (collect source options).errors.head? = some error ∧
        ∃ errors, readAll source options = .error errors ∧ error ∈ errors) ∧
    (∀ errors, readAll source options = .error errors →
      errors ≠ [] ∧ errors.Pairwise fun a b => a.span.start ≤ b.span.start) ∧
    (∀ error, read source options = .error error ↔
      ∃ rest, readAll source options = .error (error :: rest)) := by
  refine ⟨fun formula => readAll_eq_ok_iff.symm, fun error h => ?_, fun errors h => ?_,
    fun error => ?_⟩
  · obtain ⟨lowest, rest, hall, -, hmem⟩ := readAll_of_error h
    exact ⟨head?_collect_errors h, lowest :: rest, hall, hmem⟩
  · cases hfirst : readUntilError source options with
    | ok formula =>
        rw [readAll_of_readUntilError_ok hfirst] at h
        cases h
    | error error =>
        obtain ⟨lowest, rest, hall, -⟩ := readAll_of_error hfirst
        have hsorted := readAll_of_readUntilError_error hfirst
        rw [h, Except.error.injEq] at hall hsorted
        refine ⟨hall ▸ List.cons_ne_nil lowest rest, ?_⟩
        rw [hsorted]
        exact ParseError.byStart_pairwise _
  · cases hfirst : readUntilError source options with
    | ok formula => simp [read, hfirst, readAll_of_readUntilError_ok hfirst]
    | error first =>
        obtain ⟨lowest, rest, hall, hread, -⟩ := readAll_of_error hfirst
        simp [hall, hread]

end Formula

end TexMath
