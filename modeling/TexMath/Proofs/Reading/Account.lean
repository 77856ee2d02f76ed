import TexMath.Proofs.Reading.Lockstep
import TexMath.Proofs.Token.Places

/-!
# The account of a reading

From the state at its start a reading passes items and records errors: each fault that it passes,
once, and otherwise errors about lexemes that it meets.  Readings of the same items are the same,
whatever readers they start from, and so is one that has the end of the source behind its items as
an item of its own.
-/

namespace TexMath

variable {size : Nat} {start s : State} {error : ParseError} {lexeme : Lexeme} {items : List Item}

def Lexeme.ending (size : Nat) : Lexeme := ⟨.sourceEnd, .point size, ""⟩

def Lexeme.MetIn (lexeme : Lexeme) (items : List Item) (size : Nat) : Prop :=
  .lexeme lexeme ∈ items ∨ lexeme = .ending size

/-- An error that a rule reports: about a lexeme that is met, or about the source as a whole. -/
inductive ParseError.Sited (items : List Item) (size : Nat) : ParseError → Prop
  | lexeme {lexeme : Lexeme} {cause : Cause} :
      lexeme.MetIn items size → cause.At lexeme → Sited items size ⟨cause, lexeme.span⟩
  | empty : Sited items size ⟨.emptyInput, ⟨0, size⟩⟩

def Context.recording (context : Context) (size : Nat) : Context :=
  { context with mode := .collect, sourceEnd := size }

/-! ## Faults in front of a lexeme -/

namespace State

/-- The state behind the faults in front of the next lexeme, when they have been recorded. -/
def passed (s : State) : State :=
  { s with
    rest := (splitFaults s.rest).2
    reported := (splitFaults s.rest).1.reverse ++ s.reported }

end State

namespace Context

variable {context : Context}

theorem report_collect (hmode : context.mode = .collect) (error : ParseError) (s : State) :
    context.report error s = .ok PUnit.unit { s with reported := error :: s.reported } := by
  simp only [report, hmode]
  rfl

theorem report_firstError (hmode : context.mode = .firstError) (error : ParseError) (s : State) :
    context.report error s = .error error s := by
  simp only [report, hmode]
  rfl

theorem forM_report_collect (hmode : context.mode = .collect) (errors : List ParseError)
    (s : State) :
    errors.forM context.report s =
      .ok PUnit.unit { s with reported := errors.reverse ++ s.reported } := by
  induction errors generalizing s with
  | nil => rfl
  | cons error errors ih =>
      change (context.report error >>= fun _ => errors.forM context.report) s = _
      rw [Reading.bind_of_ok (report_collect hmode error s), ih]
      simp

theorem peek_collect (hmode : context.mode = .collect) (s : State) :
    context.peek s = .ok (context.upcoming s.passed.rest) s.passed := by
  rw [peek_apply, Reading.bind_of_ok (forM_report_collect hmode _ _)]
  rfl

theorem peek_firstError (hmode : context.mode = .firstError) {errors : List ParseError}
    (h : (splitFaults s.rest).1 = error :: errors) :
    context.peek s = .error error { s with rest := (splitFaults s.rest).2 } := by
  rw [peek_apply, h]
  exact Reading.bind_of_error (Reading.bind_of_error (report_firstError hmode error _) _) _

end Context

/-! ## What is passed and what is reported -/

/-- What has happened between the states: some items are passed, and the faults among them and the
errors of some rules are reported. -/
inductive State.Accounts (start : State) (size : Nat) (s : State) : Prop
  | intro {front : List Item} {own : List ParseError} :
      start.rest = front ++ s.rest → (∀ error ∈ own, error.Sited start.rest size) →
      s.reported.Perm (front.filterMap Item.fault? ++ (own ++ start.reported)) →
      Accounts start size s

namespace State.Accounts

theorem refl (start : State) (size : Nat) : start.Accounts size start :=
  @intro start size start [] [] rfl (by simp) (.refl _)

theorem report (h : start.Accounts size s) (herror : error.Sited start.rest size) :
    start.Accounts size { s with reported := error :: s.reported } := by
  obtain @⟨front, own, hitems, hown, hreported⟩ := h
  exact @intro start size { s with reported := error :: s.reported } front (error :: own) hitems
    (List.forall_mem_cons.mpr ⟨herror, hown⟩)
    ((hreported.cons error).trans List.perm_middle.symm)

theorem passed (h : start.Accounts size s) : start.Accounts size s.passed := by
  obtain @⟨front, own, hitems, hown, hreported⟩ := h
  have hfaults : ∀ errors : List ParseError,
      (errors.map Item.fault).filterMap Item.fault? = errors := by
    intro errors
    induction errors with
    | nil => rfl
    | cons error errors ih => exact congrArg (error :: ·) ih
  refine @intro start size s.passed (front ++ (splitFaults s.rest).1.map .fault) own ?_ hown ?_
  · rw [hitems, List.append_assoc]
    exact congrArg (front ++ ·) (map_fault_append_splitFaults s.rest).symm
  · rw [List.filterMap_append, hfaults, List.append_assoc]
    exact ((List.reverse_perm _).append hreported).trans (List.perm_append_comm_assoc _ _ _)

theorem advanced {rest : List Item} (h : start.Accounts size s)
    (hrest : s.rest = .lexeme lexeme :: rest) : start.Accounts size (s.advanced lexeme) := by
  obtain @⟨front, own, hitems, hown, hreported⟩ := h
  refine @intro start size (s.advanced lexeme) (front ++ [.lexeme lexeme]) own
    (by simp [State.advanced, hitems, hrest]) hown ?_
  rw [List.filterMap_append]
  simpa [State.advanced, Item.fault?, List.filterMap_cons] using hreported

theorem upcoming_metIn {context : Context} (h : start.Accounts size s)
    (hsize : context.sourceEnd = size) : (context.upcoming s.rest).MetIn start.rest size := by
  obtain ⟨hitems, -, -⟩ := h
  rw [hitems]
  rcases s.rest with _ | ⟨_ | _, items⟩
  · exact .inr (by rw [← hsize]; rfl)
  · exact .inl (List.mem_append_right _ List.mem_cons_self)
  · exact .inr (by rw [← hsize]; rfl)

end State.Accounts

/-! ## One reading, with or without the end as an item -/

namespace State

def padded (s : State) (extra : List Item) : State := { s with rest := s.rest ++ extra }

@[simp] theorem padded_rest (s : State) (extra : List Item) :
    (s.padded extra).rest = s.rest ++ extra := rfl

@[simp] theorem padded_nil (s : State) : s.padded [] = s := by simp [padded]

end State

def Reading.padded {α : Type} (extra : List Item) :
    EStateM.Result ParseError State α → EStateM.Result ParseError State α
  | .ok a s => .ok a (s.padded extra)
  | .error error s => .error error (s.padded extra)

@[simp] theorem Reading.padded_nil {α : Type} (result : EStateM.Result ParseError State α) :
    Reading.padded [] result = result := by
  cases result <;> simp [Reading.padded]

def IsPadding (size : Nat) (extra : List Item) : Prop :=
  extra = [] ∨ extra = [.lexeme (.ending size)]

namespace IsPadding

variable {extra : List Item}

theorem splitFaults_append (h : IsPadding size extra) (items : List Item) :
    splitFaults (items ++ extra) = ((splitFaults items).1, (splitFaults items).2 ++ extra) := by
  induction items with
  | nil => rcases h with rfl | rfl <;> rfl
  | cons item items ih =>
      cases item with
      | lexeme lexeme => rfl
      | fault error => simp only [List.cons_append, splitFaults, ih]

theorem passed (h : IsPadding size extra) (s : State) :
    (s.padded extra).passed = s.passed.padded extra := by
  simp [State.passed, State.padded, h.splitFaults_append]

theorem upcoming (h : IsPadding size extra) {context : Context} (hsize : context.sourceEnd = size)
    (items : List Item) : context.upcoming (items ++ extra) = context.upcoming items := by
  subst hsize
  cases items with
  | nil => rcases h with rfl | rfl <;> rfl
  | cons item items => cases item <;> rfl

end IsPadding

namespace Pairing

variable {mode : ReadingMode} {extra : List Item}

/-- A reading and the same with the extra items behind its own. -/
def padding (start : State) (size : Nat) (mode : ReadingMode) (extra : List Item) : Pairing where
  contexts _ c c' := c = c' ∧ c.mode = mode ∧ c.sourceEnd = size
  lexemes l l' := l = l' ∧ l.MetIn start.rest size
  spans := Eq
  contents := Eq
  states s s' := start.Accounts size s ∧ s' = s.padded extra
  stopped e s e' s' := e' = e ∧ s' = s.padded extra ∧ (mode = .collect →
    start.Accounts size s ∧ ∃ l, Lexeme.MetIn l start.rest size ∧ e = ⟨.nestingTooDeep, l.span⟩)

theorem eq_of_atoms {P : Pairing} (hcontents : P.contents = Eq) (hspans : P.spans = Eq)
    {a a' : Atom} (h : P.Atoms a a') : a = a' := by
  have hsame : ∀ x y, P.contents x y → id x = id y := by
    intro x y hxy
    rwa [hcontents] at hxy
  have hsuperscript := h.map_script hsame .superscript
  have hsubscript := h.map_script hsame .subscript
  rw [Option.map_id, id, id] at hsuperscript hsubscript
  obtain ⟨hkind, hnucleus, harguments, -, hboundaries, hrows, hspan⟩ := h
  rw [hcontents] at harguments hrows
  rw [hspans] at hspan
  rw [List.forall₂_eq_eq_eq] at harguments hrows
  rw [List.forall₂_eq_eq_eq] at hrows
  cases a
  cases a'
  cases hkind
  cases hnucleus
  cases harguments
  cases hsuperscript
  cases hsubscript
  cases hboundaries
  cases hrows
  cases hspan
  rfl

theorem eq_of_rows {P : Pairing} (hcontents : P.contents = Eq) (hspans : P.spans = Eq)
    {f f' : Formula} (h : P.Rows f f') : f = f' := by
  induction h with
  | nil => rfl
  | cons hatom _ ih => rw [eq_of_atoms hcontents hspans hatom, ih]

theorem rows_refl {P : Pairing} (hcontents : ∀ f, P.contents f f)
    (hspans : ∀ span, P.spans span span) (f : Formula) : P.Rows f f := by
  refine List.forall₂_same.mpr fun a _ => ⟨rfl, rfl, List.forall₂_same.mpr fun f _ => hcontents f,
    fun which => ?_, rfl,
    List.forall₂_same.mpr fun cells _ => List.forall₂_same.mpr fun f _ => hcontents f, hspans _⟩
  cases a.script which with
  | none => exact .none
  | some script => exact .some (hcontents script)

theorem padding_report {context : Context} (hmode : context.mode = mode)
    (herror : error.Sited start.rest size) (h : start.Accounts size s) :
    (padding start size mode extra).Outcomes (fun _ _ => (padding start size mode extra).states)
      (context.report error s) (context.report error (s.padded extra)) := by
  subst hmode
  unfold Context.report
  cases hmode : context.mode with
  | firstError => exact ⟨rfl, rfl, nofun⟩
  | collect => exact ⟨h.report herror, rfl⟩

theorem padding_peek (hextra : IsPadding size extra) {context : Context}
    (hmode : context.mode = mode) (hsize : context.sourceEnd = size)
    (h : start.Accounts size s) :
    (padding start size mode extra).Outcomes
      (fun next next' t t' => (padding start size mode extra).lexemes next next' ∧
        (padding start size mode extra).states t t')
      (context.peek s) (context.peek (s.padded extra)) := by
  have hpadded := hextra.splitFaults_append s.rest
  cases hmode' : context.mode with
  | firstError =>
      cases hfaults : (splitFaults s.rest).1 with
      | nil =>
          have hfaults' : (splitFaults (s.padded extra).rest).1 = [] := by
            rw [State.padded_rest, hpadded, hfaults]
          rw [Context.peek_of_nil context hfaults, Context.peek_of_nil context hfaults',
            State.padded_rest, hextra.upcoming hsize]
          exact ⟨⟨rfl, h.upcoming_metIn hsize⟩, h, rfl⟩
      | cons error errors =>
          have hfaults' : (splitFaults (s.padded extra).rest).1 = error :: errors := by
            rw [State.padded_rest, hpadded, hfaults]
          rw [Context.peek_firstError hmode' hfaults, Context.peek_firstError hmode' hfaults',
            State.padded_rest, hpadded]
          exact ⟨rfl, rfl, fun hcollect => by rw [← hmode, hmode'] at hcollect; cases hcollect⟩
  | collect =>
      rw [Context.peek_collect hmode', Context.peek_collect hmode', hextra.passed,
        State.padded_rest, hextra.upcoming hsize]
      exact ⟨⟨rfl, h.passed.upcoming_metIn hsize⟩, h.passed, rfl⟩

theorem padding_missingArgument {context : Context} (hmode : context.mode = mode)
    {command : String} (hmet : lexeme.MetIn start.rest size) (hcommand : TakesArgument command)
    (h : start.Accounts size s) :
    (padding start size mode extra).Outcomes
      (fun f f' t t' => f = f' ∧ (padding start size mode extra).states t t')
      (Readers.missingArgument context command lexeme.span s)
      (Readers.missingArgument context command lexeme.span (s.padded extra)) := by
  have hreport : (padding start size mode extra).Runs (padding start size mode extra).states
      (context.report ⟨.missingArgument command, lexeme.span⟩)
      (context.report ⟨.missingArgument command, lexeme.span⟩)
      fun _ _ => (padding start size mode extra).states := by
    rintro t _ ⟨ht, rfl⟩
    exact padding_report hmode (.lexeme hmet (.missingArgument hcommand)) ht
  unfold Readers.missingArgument
  split
  · exact ⟨rfl, h, rfl⟩
  · exact hreport.bind (fun _ _ => .pure fun _ _ ht => ⟨rfl, ht⟩) _ _ ⟨h, rfl⟩

theorem padding_lawful (hextra : IsPadding size extra) (start : State) (mode : ReadingMode) :
    (padding start size mode extra).Lawful where
  token h := by rw [h.1]
  groups h := by rw [h.1]
  fewer h := h
  room h := by rw [h.1]
  deeper groups h _ := by
    obtain ⟨rfl, hmode, hsize⟩ := h
    exact ⟨rfl, hmode, hsize⟩
  tooDeep _ _ hl hs := by
    obtain ⟨rfl, hl⟩ := hl
    exact ⟨rfl, hs.2, fun _ => ⟨hs.1, _, hl, rfl⟩⟩
  lexemeSpan h := by rw [h.1]; rfl
  pointSpan h := by rw [h.1]; rfl
  stops hs l l' hl := by
    rw [hl.1, hs.2]
    rfl
  cover ha hb := by
    cases ha
    cases hb
    rfl
  contents h := eq_of_rows rfl rfl h
  report h hl hcause hs := by
    obtain ⟨rfl, hmode, -⟩ := h
    obtain ⟨rfl, hl⟩ := hl
    obtain ⟨hs, rfl⟩ := hs
    exact padding_report hmode (.lexeme hl hcause) hs
  invalidDelimiter h hl htoken hs := by
    obtain ⟨rfl, hmode, -⟩ := h
    obtain ⟨rfl, hl⟩ := hl
    obtain ⟨hs, rfl⟩ := hs
    exact padding_report hmode (.lexeme hl (.invalidDelimiter htoken)) hs
  peek h hs := by
    obtain ⟨rfl, hmode, hsize⟩ := h
    obtain ⟨hs, rfl⟩ := hs
    exact padding_peek hextra hmode hsize hs
  advance hl hs hrest _ := by
    obtain ⟨rfl, -⟩ := hl
    obtain ⟨hs, rfl⟩ := hs
    exact ⟨hs.advanced hrest, by simp [State.advanced, State.padded, hrest]⟩
  missingArgument h hl hcommand hs := by
    obtain ⟨rfl, hmode, -⟩ := h
    obtain ⟨rfl, hl⟩ := hl
    obtain ⟨hs, rfl⟩ := hs
    exact padding_missingArgument hmode hl hcommand hs

end Pairing

/-! ## Whole readings -/

namespace Readers

theorem upTo_eq_iterate (bound : Nat) : upTo bound = next^[bound] idle := by
  induction bound with
  | zero => rfl
  | succ bound ih => rw [Function.iterate_succ_apply', ← ih, upTo]

end Readers

def Context.ofSource (mode : ReadingMode) (options : ReadingOptions) (source : String) : Context :=
  { options, mode, sourceEnd := source.utf8ByteSize }

theorem Context.eq_sourceEnd_of_closes {context : Context} (hgroups : context.groups = [])
    {token : Token} (h : context.closes token = true) : token = .sourceEnd := by
  unfold Context.closes at h
  rw [hgroups] at h
  split at h
  all_goals first | rfl | skip
  all_goals simp at h

theorem Context.Stops.eq_nil {context : Context} {items : List Item} (hgroups : context.groups = [])
    (hreal : ∀ lexeme, .lexeme lexeme ∈ items → lexeme.token ≠ .sourceEnd)
    (h : context.Stops items) : items = [] := by
  have htoken := Context.eq_sourceEnd_of_closes hgroups h.2
  rcases items with _ | ⟨lexeme | error, items⟩
  · rfl
  · exact absurd htoken (hreal lexeme List.mem_cons_self)
  · cases h.1

namespace Readers

variable {bound : Nat} {extra : List Item}

theorem row_iterate_ok {readers : Readers} {context : Context} {formula : Formula} {s t : State}
    (hbound : s.ahead < bound)
    (h : (next^[bound] readers).row context [] s = .ok formula t) :
    s.Accounts context.sourceEnd t ∧ context.Stops t.rest := by
  have hextra : IsPadding context.sourceEnd [] := .inl rfl
  have lawful := Pairing.padding_lawful hextra s context.mode
  have paired := Pairing.paired_iterate lawful bound readers readers
  have houtcomes := paired.row (c := context) ⟨rfl, rfl, rfl⟩ .nil s s
    ⟨⟨.refl s _, s.padded_nil.symm⟩, hbound⟩
  rw [h] at houtcomes
  exact ⟨houtcomes.1.2.1.1, houtcomes.2⟩

theorem root_padding (mode : ReadingMode) (options : ReadingOptions) (source : String)
    (hextra : IsPadding source.utf8ByteSize extra)
    (hbound : (significantItems source).length < bound) (readers : Readers) :
    (Pairing.padding { rest := significantItems source } source.utf8ByteSize mode extra).Outcomes
      (fun f f' s s' => f' = f ∧ s.rest = [] ∧ s' = s.padded extra ∧
        State.Accounts { rest := significantItems source } source.utf8ByteSize s)
      (runReading mode options source)
      ((next^[bound] readers).root (.ofSource mode options source)
        { rest := significantItems source ++ extra }) := by
  -- The levels that are too many count as part of the readers at the bottom.
  obtain ⟨higher, rfl⟩ := Nat.exists_eq_add_of_lt hbound
  let start : State := { rest := significantItems source }
  let count := (significantItems source).length
  have lawful := Pairing.padding_lawful hextra start mode
  have paired := Pairing.paired_iterate lawful (count + 1) idle (next^[higher] readers)
  rw [← upTo_eq_iterate, ← Function.iterate_add_apply] at paired
  have hwithin : (Pairing.padding start source.utf8ByteSize mode extra).Within (count + 1) start
      (start.padded extra) :=
    ⟨⟨.refl _ _, rfl⟩, Nat.lt_succ_of_le start.ahead_le_length⟩
  rw [show count + higher + 1 = count + 1 + higher by omega]
  let P := Pairing.padding start source.utf8ByteSize mode extra
  let context : Context := .ofSource mode options source
  have hempty : ∀ s s', P.states s s' → P.Outcomes (fun _ _ => P.states)
      (context.report ⟨.emptyInput, ⟨0, source.utf8ByteSize⟩⟩ s)
      (context.report ⟨.emptyInput, ⟨0, source.utf8ByteSize⟩⟩ s') := by
    rintro s _ ⟨hs, rfl⟩
    exact Pairing.padding_report rfl .empty hs
  have hcontexts : P.contexts (count + 1) context context := ⟨rfl, rfl, rfl⟩
  refine (paired.root hcontexts rfl (fun _ => hempty) start _ hwithin).imp ?_
  rintro f f' s s' - - ⟨hrows, ⟨haccounts, hpadded⟩, hstops⟩
  refine ⟨(Pairing.eq_of_rows rfl rfl hrows).symm, hstops.eq_nil rfl ?_, hpadded, haccounts⟩
  intro lexeme hlexeme
  obtain ⟨hitems, -, -⟩ := haccounts
  exact token_ne_of_mem_significantItems (hitems ▸ List.mem_append_right _ hlexeme)

/-- Whatever readers stand that many levels below, they are not asked. -/
theorem root_iterate (mode : ReadingMode) (options : ReadingOptions) (source : String)
    (hextra : IsPadding source.utf8ByteSize extra)
    (hbound : (significantItems source).length < bound) (readers : Readers) :
    (next^[bound] readers).root (.ofSource mode options source)
      { rest := significantItems source ++ extra } =
        Reading.padded extra (runReading mode options source) := by
  rcases (root_padding mode options source hextra hbound readers).returned_or_stopped with
    ⟨f, _, s, _, hread, hread', rfl, -, rfl, -⟩ | ⟨e, _, s, _, hread, hread', rfl, rfl, -⟩
  · rw [hread, hread']
    rfl
  · rw [hread, hread']
    rfl

end Readers

theorem runReading_eq_root (mode : ReadingMode) (options : ReadingOptions) {source : String}
    {bound : Nat} (hbound : (significantItems source).length < bound) :
    runReading mode options source =
      (Readers.upTo bound).root (.ofSource mode options source)
        { rest := significantItems source } := by
  have h := Readers.root_iterate mode options source (.inl rfl) hbound .idle
  rw [← Readers.upTo_eq_iterate, List.append_nil] at h
  rw [h, Reading.padded_nil]

/-! ## The account of a whole reading -/

variable {source : String} {options : ReadingOptions}

theorem runReading_ok {mode : ReadingMode} {formula : Formula}
    (h : runReading mode options source = .ok formula s) :
    s.rest = [] ∧ State.Accounts { rest := significantItems source } source.utf8ByteSize s := by
  have houtcomes := Readers.root_padding mode options source (.inl rfl) (Nat.lt_succ_self _) .idle
  rw [h] at houtcomes
  obtain ⟨_, _, -, -, hrest, -, haccounts⟩ := houtcomes.of_ok
  exact ⟨hrest, haccounts⟩

theorem runReading_error (h : runReading .collect options source = .error error s) :
    State.Accounts { rest := significantItems source } source.utf8ByteSize s ∧
      ∃ l : Lexeme, l.MetIn (significantItems source) source.utf8ByteSize ∧
        error = ⟨.nestingTooDeep, l.span⟩ := by
  have houtcomes :=
    Readers.root_padding .collect options source (.inl rfl) (Nat.lt_succ_self _) .idle
  rw [h] at houtcomes
  obtain ⟨_, _, -, -, -, haccounts⟩ := houtcomes.of_error
  exact haccounts rfl

end TexMath
