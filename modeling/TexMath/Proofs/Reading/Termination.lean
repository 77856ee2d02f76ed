import TexMath.Proofs.Reading.Account

/-!
# Every reading ends

No reading goes deeper than there are items, so that what stands below that depth is never asked.
One round of each loop either leaves the loop or goes on from a later place in the source, and the
end of the source, where it is an item like the others, is still there when the reading is over.
-/

namespace TexMath

open Text

variable {source : String} {s t : State} {context : Context}

/-! ## Places in a source -/

namespace Cursor

variable {cursor : Cursor}

theorem scan_iterate_of_standsIn (hstands : cursor.StandsIn source) (count : Nat) :
    ((fun cursor : Cursor => cursor.scan.2)^[count] cursor).scan.1 =
      (cursor.items cursor.rest.length)[count]?.getD (.lexeme (.ending source.utf8ByteSize)) := by
  have hnil : ∀ {cursor : Cursor}, cursor.rest = [] →
      cursor.scan = (.lexeme (.ending cursor.offset), cursor) := by
    intro cursor hrest
    unfold scan
    rw [hrest]
    rfl
  induction count generalizing cursor with
  | zero =>
      by_cases hrest : cursor.rest = []
      · rw [items_of_nil hrest]
        simp [hnil hrest, hstands.offset_of_nil hrest]
      · rw [items_of_ne_nil hrest]
        rfl
  | succ count ih =>
      rw [Function.iterate_succ_apply]
      by_cases hrest : cursor.rest = []
      · have hsame := ih hstands
        rw [hnil hrest]
        rw [items_of_nil hrest] at hsame ⊢
        exact hsame
      · obtain ⟨text, hpasses⟩ := scan_passes hrest
        rw [items_of_ne_nil hrest, List.getElem?_cons_succ]
        exact ih (hstands.behind hpasses)

theorem scan_iterate (source : String) (count : Nat) :
    ((fun cursor : Cursor => cursor.scan.2)^[count] (.start source)).scan.1 =
      (TexMath.items source)[count]?.getD (.lexeme (.ending source.utf8ByteSize)) :=
  scan_iterate_of_standsIn (start_standsIn source) count

theorem scan_offset_lt (h : cursor.rest ≠ []) : cursor.offset < cursor.scan.2.offset := by
  obtain ⟨text, hpasses⟩ := scan_passes h
  have hlength := length_scan_lt h
  rw [hpasses.rest, List.length_append] at hlength
  have hwidth := length_le_width text
  have hoffset := hpasses.offset
  omega

theorem exists_further {item : Item} {rest : List Item} (hstands : cursor.StandsIn source)
    (h : cursor.significant = item :: rest) :
    ∃ further : Cursor, further.StandsIn source ∧ cursor.offset < further.offset ∧
      further.significant = rest := by
  induction hlength : cursor.rest.length using Nat.strong_induction_on generalizing cursor with
  | _ length ih =>
      have hrest : cursor.rest ≠ [] := by
        intro hnil
        rw [significant, items_of_nil hnil] at h
        cases h
      obtain ⟨text, hpasses⟩ := scan_passes hrest
      have hlater := scan_offset_lt hrest
      have hbehind := hstands.behind hpasses
      rw [significant_of_ne_nil hrest] at h
      split at h
      · obtain ⟨-, hafter⟩ := List.cons.inj h
        exact ⟨_, hbehind, hlater, hafter⟩
      · obtain ⟨further, hfurther, hoffset, hitems⟩ :=
          ih _ (hlength ▸ length_scan_lt hrest) hbehind h rfl
        exact ⟨further, hfurther, Nat.lt_trans hlater hoffset, hitems⟩

end Cursor

namespace State

def StandsAt (s : State) (source : String) (offset : Nat) : Prop :=
  ∃ cursor : Cursor, cursor.StandsIn source ∧ cursor.offset = offset ∧
    s.rest = cursor.significant

/-- From wherever in the source the first state stands, at least one byte has been read on to where
the second stands. -/
def Advances (source : String) (s s' : State) : Prop :=
  ∀ offset, s.StandsAt source offset → ∃ further, offset < further ∧ s'.StandsAt source further

theorem advances_of_rest {front : List Item} {item : Item}
    (h : s.rest = front ++ item :: t.rest) : s.Advances source t := by
  rintro offset ⟨cursor, hstands, rfl, hrest⟩
  rw [h] at hrest
  clear h
  induction front generalizing cursor with
  | nil =>
      obtain ⟨further, hfurther, hlt, hitems⟩ := Cursor.exists_further hstands hrest.symm
      exact ⟨_, hlt, further, hfurther, rfl, hitems.symm⟩
  | cons first front ih =>
      obtain ⟨middle, hmiddle, hlt, hitems⟩ := Cursor.exists_further hstands hrest.symm
      obtain ⟨further, hfurther, hplace⟩ := ih middle hmiddle hitems.symm
      exact ⟨further, Nat.lt_trans hlt hfurther, hplace⟩

theorem exists_standsAt (h : s.rest <:+ significantItems source) :
    ∃ offset, s.StandsAt source offset := by
  obtain ⟨front, hfront⟩ := h
  suffices hplace : ∀ cursor : Cursor, cursor.StandsIn source →
      cursor.significant = front ++ s.rest → ∃ offset, s.StandsAt source offset from
    hplace _ (Cursor.start_standsIn source) hfront.symm
  clear hfront
  induction front with
  | nil => exact fun cursor hstands hitems => ⟨_, cursor, hstands, rfl, hitems.symm⟩
  | cons first front ih =>
      intro cursor hstands hitems
      obtain ⟨further, hfurther, -, hrest⟩ := Cursor.exists_further hstands hitems
      exact ih further hfurther hrest

theorem rest_of_peek {next : Lexeme} {middle : State} (hpeek : context.peek middle = .ok next t)
    (htoken : next.token ≠ .sourceEnd) {front : List Item} (h : s.rest = front ++ middle.rest) :
    ∃ passed, s.rest = passed ++ .lexeme next :: (t.advanced next).rest := by
  refine ⟨front ++ (splitFaults middle.rest).1.map .fault, ?_⟩
  rw [h, List.append_assoc, ← Context.peek_takes hpeek htoken, (Context.peek_rest hpeek).1,
    map_fault_append_splitFaults]

end State

/-! ## Single rounds of the loops -/

namespace Context

/-- Looking for the next lexeme ends, or passes a fault and goes on behind it. -/
def PeekRound (context : Context) (source : String) (s : State) : Prop :=
  context.peek s = .ok (context.upcoming s.rest) s ∨
  (context.mode = .firstError ∧ ∃ error t, context.peek s = .error error t) ∨
  ∃ error t, t.reported = error :: s.reported ∧ context.peek s = context.peek t ∧
    s.Advances source t

theorem peekRound (context : Context) (source : String) (s : State) :
    context.PeekRound source s := by
  rcases hrest : s.rest with _ | ⟨lexeme | error, rest⟩
  · exact .inl (context.peek_of_nil (by rw [hrest]; rfl))
  · exact .inl (context.peek_of_nil (by rw [hrest]; rfl))
  · refine .inr ?_
    cases hmode : context.mode with
    | firstError =>
        have hfaults : (splitFaults s.rest).1 = error :: (splitFaults rest).1 := by rw [hrest]; rfl
        exact .inl ⟨rfl, error, _, peek_firstError hmode hfaults⟩
    | collect =>
        have hfront : s.rest = [] ++ .fault error :: rest := hrest
        refine .inr ⟨error, { s with rest, reported := error :: s.reported }, rfl, ?_,
          State.advances_of_rest hfront⟩
        rw [peek_collect hmode, peek_collect hmode]
        simp [State.passed, hrest, splitFaults]

end Context

namespace Readers

/-- A row ends, or a lexeme is taken, which is not the end of the source, and the row goes on behind
what begins with it. -/
def RowRound (readers : Readers) (context : Context) (source : String) (atoms : List Atom)
    (s : State) : Prop :=
  (∃ error t, context.peek s = .error error t ∧
    readers.rowStep context atoms s = .error error t) ∨
  (∃ next t, context.peek s = .ok next t ∧ context.closes next.token = true ∧
    readers.rowStep context atoms s = .ok atoms.reverse t) ∨
  ∃ next t, next.token ≠ .sourceEnd ∧ s.Advances source t ∧
    readers.rowStep context atoms s =
      (readers.lexemeStep context next atoms >>= readers.row context) t ∧
    ∀ atoms' u, readers.lexemeStep context next atoms t = .ok atoms' u → s.Advances source u

/-- A table ends without asking how it goes on, or it goes on behind a cell and a separator. -/
def GridRound (readers : Readers) (context : Context) (source : String)
    (environment : Environment) (opened : Span) (rows : List (List Formula))
    (cells : List Formula) (s : State) : Prop :=
  (∀ grid, { readers with grid }.gridStep context environment opened rows cells s =
    readers.gridStep context environment opened rows cells s) ∨
  ∃ rows' cells' t, s.Advances source t ∧ ∀ grid,
    { readers with grid }.gridStep context environment opened rows cells s =
      grid context environment opened rows' cells' t

theorem rest_of_lexemeStep {bound : Nat} {base : Readers} {atoms atoms' : List Atom}
    {next : Lexeme} {u : State} (hbound : s.ahead ≤ bound) (hpeek : context.peek s = .ok next t)
    (htoken : next.token ≠ .sourceEnd)
    (h : (Readers.next^[bound] base).lexemeStep context next atoms (t.advanced next) =
      .ok atoms' u) :
    ∃ front item, s.rest = front ++ item :: u.rest := by
  obtain ⟨higher, rfl⟩ := Nat.exists_eq_add_of_le hbound
  rw [Function.iterate_add_apply] at h
  have hextra : IsPadding context.sourceEnd [] := .inl rfl
  have lawful := Pairing.padding_lawful hextra s context.mode
  have paired := Pairing.paired_iterate lawful s.ahead (Readers.next^[higher] base)
    (Readers.next^[higher] base)
  have hcontexts : (Pairing.padding s context.sourceEnd context.mode []).contexts s.ahead context
      context := ⟨rfl, rfl, rfl⟩
  have hlooked := lawful.peek hcontexts ⟨.refl s _, s.padded_nil.symm⟩
  rw [hpeek] at hlooked
  obtain ⟨hnext, hstates⟩ := hlooked
  have htakes := Context.peek_takes hpeek htoken
  have hahead : (t.advanced next).ahead < s.ahead := by
    have htaken := State.ahead_advanced htakes
    have hpassed := Context.peek_ahead hpeek
    omega
  have hread := Pairing.Paired.lexemeStep lawful paired hcontexts hnext
    (Pairing.rows_refl (fun _ => rfl) (fun _ => rfl) atoms) _ _
    ⟨lawful.advance hnext hstates htakes htakes, hahead⟩
  rw [h] at hread
  obtain ⟨-, ⟨haccounts, -⟩, hfewer⟩ := hread
  obtain @⟨front, _, hfront, -, -⟩ := haccounts
  -- Something has been passed, because fewer lexemes remain than before.
  obtain rfl | ⟨front, item, rfl⟩ := List.eq_nil_or_concat front
  · exact absurd (State.ahead_of_rest hfront) (Nat.ne_of_gt hfewer)
  · exact ⟨front, item, by rw [hfront, List.concat_eq_append, List.append_assoc]; rfl⟩

theorem rowRound {bound : Nat} (base : Readers) (context : Context) (source : String)
    (atoms : List Atom) (hbound : s.ahead ≤ bound) :
    (next^[bound] base).RowRound context source atoms s := by
  have hstep : (next^[bound] base).rowStep context atoms s =
      (context.peek >>= fun next =>
        if context.closes next.token then pure atoms.reverse
        else Context.advance next >>= fun _ =>
          (Readers.next^[bound] base).lexemeStep context next atoms >>=
            (Readers.next^[bound] base).row context : Reading Formula) s := rfl
  cases hpeek : context.peek s with
  | error error t =>
      exact .inl ⟨error, t, hpeek, hstep.trans (Reading.bind_of_error hpeek _)⟩
  | ok next t =>
      rw [Reading.bind_of_ok hpeek] at hstep
      split at hstep
      · rename_i hcloses
        exact .inr (.inl ⟨next, t, hpeek, hcloses, hstep⟩)
      · rename_i hcloses
        have htoken := Context.ne_sourceEnd_of_closes (by simpa using hcloses)
        obtain ⟨passed, hpassed⟩ := State.rest_of_peek hpeek htoken (List.nil_append _).symm
        refine .inr (.inr ⟨next, t.advanced next, htoken, State.advances_of_rest hpassed, hstep,
          fun atoms' u hlexeme => ?_⟩)
        obtain ⟨front, item, hfront⟩ := rest_of_lexemeStep hbound hpeek htoken hlexeme
        exact State.advances_of_rest hfront

section gridStep

variable (readers : Readers) (environment : Environment) (rows : List (List Formula))
  (cells : List Formula) {opened : Span} {cell : Formula} {following : Lexeme} {u : State}
  (hcell : context.inGroup .cell opened (fun inside => readers.row inside []) s = .ok cell t)
  (hpeek : context.peek t = .ok following u)
include hcell hpeek

theorem gridStep_columnMark (htoken : following.token = .columnMark) :
    readers.gridStep context environment opened rows cells s =
      ((if !environment.allowsColumns then
          context.report ⟨.misplacedSeparator .column, following.span⟩
        else pure ()) >>= fun _ =>
          readers.grid context environment opened rows (cell :: cells)) (u.advanced following) := by
  refine (Reading.bind_of_ok hcell _).trans ((Reading.bind_of_ok hpeek _).trans ?_)
  dsimp only
  rw [htoken]
  cases environment.allowsColumns <;> rfl

theorem gridStep_newRow (htoken : following.token = .command "\\") :
    readers.gridStep context environment opened rows cells s =
      readers.grid context environment opened ((cell :: cells).reverse :: rows) []
        (u.advanced following) := by
  refine (Reading.bind_of_ok hcell _).trans ((Reading.bind_of_ok hpeek _).trans ?_)
  dsimp only
  rw [htoken]
  rfl

theorem gridStep_last (hcolumn : following.token ≠ .columnMark)
    (hrow : following.token ≠ .command "\\")
    (grid : Context → Environment → Span → List (List Formula) → List Formula →
      Reading (List (List Formula))) :
    { readers with grid }.gridStep context environment opened rows cells s =
      readers.gridStep context environment opened rows cells s := by
  refine (Reading.bind_of_ok hcell _).trans ((Reading.bind_of_ok hpeek _).trans ?_)
  refine Eq.trans ?_ ((Reading.bind_of_ok hcell _).trans (Reading.bind_of_ok hpeek _)).symm
  generalize following.token = token at hcolumn hrow
  cases token with
  | columnMark => exact absurd rfl hcolumn
  | environmentEnd found => rfl
  | _ =>
      dsimp only
      rw [if_neg hrow, if_neg hrow]

end gridStep

theorem gridRound {bound : Nat} (base : Readers) (context : Context) (source : String)
    (environment : Environment) (opened : Span) (rows : List (List Formula))
    (cells : List Formula) (hbound : s.ahead < bound) :
    (next^[bound] base).GridRound context source environment opened rows cells s := by
  cases hcell :
      context.inGroup .cell opened (fun inside => (next^[bound] base).row inside []) s with
  | error error t =>
      exact .inl fun grid =>
        (Reading.bind_of_error hcell _).trans (Reading.bind_of_error hcell _).symm
  | ok cell t =>
      have hrow := (Context.inGroup_eq_ok.mp hcell).2
      obtain @⟨front, _, hfront, -, -⟩ := (row_iterate_ok hbound hrow).1
      cases hpeek : context.peek t with
      | error error u =>
          refine .inl fun grid => (Reading.bind_of_ok hcell _).trans ?_
          refine Eq.trans ?_ (Reading.bind_of_ok hcell _).symm
          exact (Reading.bind_of_error hpeek _).trans (Reading.bind_of_error hpeek _).symm
      | ok following u =>
          by_cases hcolumn : following.token = .columnMark
          · obtain ⟨passed, hpassed⟩ := State.rest_of_peek hpeek (by simp [hcolumn]) hfront
            have hstep (grid) := gridStep_columnMark { next^[bound] base with grid } environment
              rows cells hcell hpeek hcolumn
            -- A separator in an environment without columns ends a reading until the first error.
            cases hreport : (if !environment.allowsColumns then
                context.report ⟨.misplacedSeparator .column, following.span⟩
              else pure ()) (u.advanced following) with
            | error error v =>
                exact .inl fun grid => (hstep grid).trans ((Reading.bind_of_error hreport _).trans
                  ((hstep _).trans (Reading.bind_of_error hreport _)).symm)
            | ok done v =>
                have hrest : v.rest = (u.advanced following).rest := by
                  split at hreport
                  · exact Context.report_rest hreport
                  · exact (Reading.pure_eq_ok.mp hreport).2 ▸ rfl
                exact .inr ⟨_, _, v, State.advances_of_rest (hrest ▸ hpassed),
                  fun grid => (hstep grid).trans (Reading.bind_of_ok hreport _)⟩
          by_cases hnewRow : following.token = .command "\\"
          · obtain ⟨passed, hpassed⟩ := State.rest_of_peek hpeek (by simp [hnewRow]) hfront
            exact .inr ⟨_, _, _, State.advances_of_rest hpassed, fun grid =>
              gridStep_newRow { next^[bound] base with grid } environment rows cells hcell hpeek
                hnewRow⟩
          · exact .inl (gridStep_last _ environment rows cells hcell hpeek hcolumn hnewRow)

/-! ## The end of the source -/

section sourceEnd

variable {ending : Lexeme} (hpeek : context.peek s = .ok ending t)
  (hend : ending.token = .sourceEnd)
include hpeek hend

theorem argument_at_end (readers : Readers) (command : String) :
    readers.argument context command s = missingArgument context command ending.span t := by
  have hstarts : context.startsArgument ending.token = false := by rw [hend]; rfl
  refine (Reading.bind_of_ok hpeek _).trans ?_
  rw [if_neg (by simp [hend]), if_neg (by simp [hstarts])]

theorem delimiter_at_end (fence : Fence) (place : Span) :
    delimiter context fence place s =
      (context.report ⟨.missingDelimiter fence, place⟩ >>= fun _ => pure "") t := by
  refine (Reading.bind_of_ok hpeek _).trans ?_
  rw [if_pos (.inl hend)]

end sourceEnd

end Readers

/-! ## Whole readings -/

/-- Every reading ends, in both modes and under every limit: readers as many levels down as there
are items are never asked.  Each round of a loop ends it or goes on from a later place in the
source.  The end of the source, even where it is an item, is never taken, so that no scan is asked
for behind it, and in front of it there are no more items than bytes. -/
theorem readings_end (mode : ReadingMode) (options : ReadingOptions) (source : String) :
    (∀ (base : Readers) (bound : Nat), (significantItems source).length < bound →
      (Readers.next^[bound] base).root (.ofSource mode options source)
          { rest := significantItems source } = runReading mode options source ∧
      (Readers.next^[bound] base).root (.ofSource mode options source)
          { rest := significantItems source ++ [.lexeme (.ending source.utf8ByteSize)] } =
        Reading.padded [.lexeme (.ending source.utf8ByteSize)]
          (runReading mode options source)) ∧
    (∀ s : State, s.rest <:+ significantItems source → ∃ offset, s.StandsAt source offset) ∧
    (∀ (context : Context) (s : State), context.PeekRound source s) ∧
    (∀ (base : Readers) (bound : Nat) (context : Context) (atoms : List Atom) (s : State),
      s.ahead ≤ bound → (Readers.next^[bound] base).RowRound context source atoms s) ∧
    (∀ (base : Readers) (bound : Nat) (context : Context) (environment : Environment)
        (opened : Span) (rows : List (List Formula)) (cells : List Formula) (s : State),
      s.ahead < bound →
      (Readers.next^[bound] base).GridRound context source environment opened rows cells s) ∧
    (∀ (readers : Readers) (context : Context) (command : String) (fence : Fence) (place : Span)
        (s t : State) (ending : Lexeme),
      context.peek s = .ok ending t → ending.token = .sourceEnd →
      readers.argument context command s = Readers.missingArgument context command ending.span t ∧
      Readers.delimiter context fence place s =
        (context.report ⟨.missingDelimiter fence, place⟩ >>= fun _ => pure "") t) ∧
    (items source).length ≤ source.utf8ByteSize ∧
    ∀ count, ((fun cursor : Cursor => cursor.scan.2)^[count] (.start source)).scan.1 =
      ((items source)[count]?).getD (.lexeme (.ending source.utf8ByteSize)) := by
  refine ⟨fun base bound hbound => ⟨?_, ?_⟩, fun s => State.exists_standsAt,
    fun context s => context.peekRound source s,
    fun base bound context atoms s => Readers.rowRound base context source atoms,
    fun base bound context environment opened rows cells s hbound =>
      Readers.gridRound base context source environment opened rows cells hbound,
    fun readers context command fence place s t ending hpeek hend =>
      ⟨Readers.argument_at_end hpeek hend readers command,
        Readers.delimiter_at_end hpeek hend fence place⟩, ?_, Cursor.scan_iterate source⟩
  · simpa using Readers.root_iterate mode options source (.inl rfl) hbound base
  · exact Readers.root_iterate mode options source (.inr rfl) hbound base
  · rw [← width_toList]
    exact Nat.le_trans (Cursor.length_items_le _ _) (length_le_width _)

theorem fence_keeps_end :
    let ending : Item := .lexeme (.ending 5)
    ∃ formula s, (Readers.next^[2] .idle).root (.ofSource .collect {} "\\left")
      { rest := significantItems "\\left" ++ [ending] } = .ok formula s ∧ s.rest = [ending] := by
  intro ending
  have hbound : (significantItems "\\left").length < 2 := by decide +kernel
  have hends := ((readings_end .collect {} "\\left").1 .idle 2 hbound).2
  cases hrun : runReading .collect {} "\\left" with
  | ok formula s =>
      rw [hrun] at hends
      exact ⟨_, _, hends, congrArg (· ++ [ending]) (runReading_ok hrun).1⟩
  | error error s =>
      have hok : (Formula.collect "\\left" {}).outcome.isOk = true := by decide +kernel
      simp [Formula.collect, hrun, Except.isOk, Except.toBool] at hok

end TexMath
