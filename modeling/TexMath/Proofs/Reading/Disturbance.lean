import TexMath.Proofs.Reading.Survival

/-!
# Sources with errors strewn in

Faults between the tokens of a formula and unknown commands in the place of its symbols cost an
error each, and leave the reading of all else as it is.  The rules are gone through for sources that
break off as well.
-/

namespace TexMath

variable {α : Type} {kept : Bool} {tail items items' : List Item} {all own errors : List ParseError}
  {context : Context} {size : Nat} {l l' : Lexeme}

/-! ## The rules -/

namespace Readers

open Reading

def Any (_ _ : α) : Prop := True

structure Survive (tail : List Item) (all : List ParseError) (size : Nat)
    (readers readers' : Readers) : Prop where
  row : ∀ {context : Context}, context.mode = .firstError → ∀ {atoms atoms' : List Atom},
    Formula.Resembles atoms atoms' →
    Survives tail all (State.Tracks tail all false []) (readers.row context atoms)
      (readers'.row (context.recording size) atoms') Formula.Resembles
  lexeme : ∀ {context : Context}, context.mode = .firstError → ∀ {l l' : Lexeme}
    {own : List ParseError}, l.Counterpart l' own → ∀ {atoms atoms' : List Atom},
    Formula.Resembles atoms atoms' →
    Survives tail all (State.Tracks tail all l.token.isFence own) (readers.lexeme context l atoms)
      (readers'.lexeme (context.recording size) l' atoms') Formula.Resembles
  grid : ∀ {context : Context}, context.mode = .firstError → ∀ environment opened opened' rows rows'
    cells cells',
    Survives tail all (State.Tracks tail all false [])
      (readers.grid context environment opened rows cells)
      (readers'.grid (context.recording size) environment opened' rows' cells') Any
  ends : ∀ (context : Context) (atoms : List Atom), Finishes all (readers'.row context atoms)

namespace Survive

variable {readers readers' : Readers} (h : Survive tail all size readers readers')
  (first : context.mode = .firstError)
include h first

/-! ### Groups and arguments -/

theorem rowInside (closer : Closer) (opened opened' : Span) :
    Survives tail all (State.Tracks tail all false [])
      (context.inGroup closer opened fun inside => readers.row inside [])
      ((context.recording size).inGroup closer opened' fun inside => readers'.row inside [])
      Any :=
  .inGroup first fun _ hdeep s s' hs a t hread => by
    obtain ⟨a', t', hread', ht⟩ := h.row hdeep .nil s s' hs a t hread
    exact ⟨a', t', hread', ht.imp_left fun ht => ⟨trivial, ht.2⟩⟩

theorem enclosed (closer : Closer) {close : Token} (hplain : ¬close.IsPlain)
    (hclose : close ≠ .sourceEnd) {cause : Cause} (hcause : cause.isUnfinished = true)
    (opened opened' : Span) :
    Survives tail all (State.Tracks tail all false [])
      (readers.enclosed context closer close cause opened)
      (readers'.enclosed (context.recording size) closer close cause opened') Any := by
  refine (rowInside h first closer opened opened').bind_peek first ?_ ?_
  · intro content content' next next' own _ hnext
    refine .ite (hnext.token_eq_iff hplain) ?_ ?_
    · intro hnextClose
      refine .advance_bind (hnextClose ▸ hclose) ?_
      obtain ⟨-, rfl⟩ := hnext.same_of_not_plain (hnextClose ▸ hplain)
      exact .pure (fun _ _ => State.Tracks.relax) trivial
    · intro _
      exact .report_bind first
  · intro content
    refine .peek_bind ?_
    dsimp only
    rw [if_neg (show ¬(Lexeme.ending _).token = close from hclose.symm)]
    exact .report_bind rfl hcause (.pure content)

theorem braced (opened opened' : Span) :
    Survives tail all (State.Tracks tail all false []) (readers.braced context opened)
      (readers'.braced (context.recording size) opened') Any :=
  enclosed h first .brace (by nofun) (by simp) rfl opened opened'

omit h first in
theorem missingArgument_finishes (hmode : context.mode = .collect) (command : String)
    (next : Span) : Finishes all (Readers.missingArgument context command next) := by
  unfold Readers.missingArgument
  split
  · exact .pure _
  · exact .report_bind hmode rfl (.pure [])

omit h first in
theorem argument_finishes (hmode : context.mode = .collect) (command : String) :
    Finishes all (readers'.argument context command) := by
  refine .peek_bind ?_
  rw [if_neg (by nofun), if_neg (by simp [Context.startsArgument, Lexeme.ending, Context.closes])]
  exact missingArgument_finishes hmode command _

omit h first in
theorem arguments_finishes (hmode : context.mode = .collect) (command : String) (count : Nat) :
    Finishes all (readers'.arguments context command count) := by
  induction count with
  | zero => exact .pure []
  | succ count ih =>
      refine (argument_finishes hmode command).bind fun first => ?_
      exact ih.map (first :: ·)

theorem argument (command command' : String) :
    Survives tail all (State.Tracks tail all false []) (readers.argument context command)
      (readers'.argument (context.recording size) command') Any := by
  refine .peek_bind first (fun next next' own hnext _ => ?_) fun _ _ => argument_finishes rfl _
  refine .ite (hnext.token_eq_iff (by nofun)) ?_ ?_
  · intro hopen
    refine .advance_bind (by simp [hopen]) ?_
    obtain ⟨-, rfl⟩ := hnext.same_of_not_plain (by rw [hopen]; nofun)
    exact (braced h first next.span next'.span).weaken fun _ _ => State.Tracks.relax
  intro _
  have hstarts : (context.recording size).startsArgument next'.token =
      context.startsArgument next.token :=
    hnext.agree fun token htoken => htoken.startsArgument context
  refine .ite (by rw [hstarts]) ?_ ?_
  · intro hstarts
    have htoken := Context.ne_sourceEnd_of_closes (Context.closes_of_startsArgument hstarts).1
    refine .advance_bind htoken (.deeper first fun deep hdeep => ?_)
    exact (h.lexeme hdeep hnext .nil).map fun _ _ _ => trivial
  · intro _
    unfold Readers.missingArgument
    refine .ite Iff.rfl ?_ ?_
    · intro _
      exact .pure (fun _ _ hs => hs.tracks hnext) trivial
    · intro _
      exact .report_bind first

theorem arguments (command command' : String) (count : Nat) :
    Survives tail all (State.Tracks tail all false []) (readers.arguments context command count)
      (readers'.arguments (context.recording size) command' count) Any := by
  induction count with
  | zero => exact .pure (fun _ _ => id) trivial
  | succ count ih =>
      refine (argument h first command command').bind (fun content content' _ => ?_) ?_
      · exact ih.map fun _ _ _ => trivial
      · exact fun _ _ content => (arguments_finishes rfl command' count).map (content :: ·)

theorem index? :
    Survives tail all (State.Tracks tail all false []) (readers.index? context)
      (readers'.index? (context.recording size)) Any := by
  refine .peek_bind first (fun next next' own hnext _ => ?_) fun _ _ => ?_
  · refine .ite (hnext.token_eq_iff (by nofun)) ?_ ?_
    · intro hopen
      refine .advance_bind (by simp [hopen]) ?_
      obtain ⟨-, rfl⟩ := hnext.same_of_not_plain (by rw [hopen]; nofun)
      have hplain : ¬Token.bracketClose.IsPlain := by nofun
      have hindex := enclosed h first .bracket hplain (by simp)
        (show Cause.unbalancedBrackets.isUnfinished = true from rfl) next.span next'.span
      exact (hindex.map fun _ _ _ => trivial).weaken fun _ _ => State.Tracks.relax
    · intro _
      exact .pure (fun _ _ hs => hs.tracks hnext) trivial
  · refine .peek_bind ?_
    rw [if_neg (by nofun)]
    exact .pure none

theorem structured (template : Template) (name : String) (span span' : Span) :
    Survives tail all (State.Tracks tail all false [])
      (readers.structured context template name span)
      (readers'.structured (context.recording size) template name span') Atom.Resembles := by
  by_cases hnone : template.arguments = 0 ∧ ¬ template.optionalArgument
  · unfold Readers.structured
    rw [if_pos hnone, if_pos hnone]
    exact .pure (fun _ _ => id) (.of_kind rfl rfl rfl)
  · rw [structured_eq name span hnone, structured_eq name span' hnone]
    have hindex : Survives tail all (State.Tracks tail all false [])
        (if template.optionalArgument then readers.index? context else Pure.pure none)
        (if template.optionalArgument then readers'.index? (context.recording size)
          else Pure.pure none) Any :=
      .ite Iff.rfl (fun _ => index? h first) fun _ => .pure (fun _ _ => id) trivial
    refine hindex.bind (fun index index' _ => ?_) fun _ _ index => ?_
    · exact (arguments h first _ _ template.arguments).map_lastEnd fun _ _ _ _ _ =>
        .of_kind rfl rfl rfl
    · exact (arguments_finishes rfl _ _).map_lastEnd _

/-! ### Scripts and limits -/

omit h first in
theorem scripted_finishes (hmode : context.mode = .collect) {which : Script} {atom : Atom}
    (hproblem : scriptProblem? atom which = none) (mark : Span) :
    Finishes all (readers'.scripted context which mark atom) := by
  unfold Readers.scripted
  rw [hproblem]
  exact (argument_finishes hmode which.mark).map_lastEnd _

omit h in
theorem scriptProblem?_of_succeeds {which : Script} {mark : Span} {atom : Atom}
    (hsucceeds : Succeeds (readers.scripted context which mark atom)) :
    scriptProblem? atom which = none := by
  obtain ⟨s, a, t, hread⟩ := hsucceeds
  unfold Readers.scripted at hread
  cases hproblem : scriptProblem? atom which with
  | none => rfl
  | some cause =>
      rw [hproblem] at hread
      exact absurd hread (Context.report_bind_ne_ok first _ _ _)

theorem scripted (which : Script) (mark mark' : Span) {atom atom' : Atom}
    (hatom : atom.Resembles atom') :
    Survives tail all (State.Tracks tail all false []) (readers.scripted context which mark atom)
      (readers'.scripted (context.recording size) which mark' atom') Atom.Resembles := by
  unfold Readers.scripted
  cases hproblem : Readers.scriptProblem? atom which with
  | some cause => exact .report_bind first
  | none =>
      rw [hatom.scriptProblem? hproblem]
      exact (argument h first which.mark which.mark).map_lastEnd fun _ _ _ _ _ =>
        hatom.withScript ..

theorem script (which : Script) (mark mark' : Span) {atoms atoms' : List Atom}
    (hatoms : Formula.Resembles atoms atoms') :
    Survives tail all (State.Tracks tail all false []) (readers.script context which mark atoms)
      (readers'.script (context.recording size) which mark' atoms') Formula.Resembles := by
  -- The atom that takes the script is the latest, or an empty one at the start of a row.
  have hscripted : ∀ {atom atom' earlier earlier'}, atom.Resembles atom' →
      Formula.Resembles earlier earlier' →
      Survives tail all (State.Tracks tail all false [])
        (readers.scripted context which mark atom >>= fun atom => Pure.pure (atom :: earlier))
        (readers'.scripted (context.recording size) which mark' atom' >>= fun atom =>
          Pure.pure (atom :: earlier')) Formula.Resembles := fun hatom hearlier =>
    (scripted h first which mark mark' hatom).map fun _ _ hscript => .cons hscript hearlier
  have hends : ∀ {atom atom' earlier earlier'}, atom.Resembles atom' →
      Succeeds (readers.scripted context which mark atom >>= fun atom =>
        Pure.pure (atom :: earlier)) →
      Finishes all (readers'.scripted (context.recording size) which mark' atom' >>= fun atom =>
        Pure.pure (atom :: earlier')) := by
    rintro atom atom' earlier earlier' hatom ⟨s, a, t, hread⟩
    obtain ⟨b, middle, hfirst, -⟩ := bind_eq_ok.mp hread
    have hproblem := scriptProblem?_of_succeeds first ⟨s, b, middle, hfirst⟩
    exact (scripted_finishes rfl (hatom.scriptProblem? hproblem) mark').map _
  have hbase : (Atom.scriptBase mark.start).Resembles (.scriptBase mark'.start) :=
    .of_kind rfl rfl rfl
  refine .peek_bind first (fun next next' own hnext _ => ?_) fun next hsucceeds => .peek_bind ?_
  · have hscript : next'.token.script? = next.token.script? :=
      hnext.agree fun token htoken => htoken.script?_eq
    rw [hscript]
    cases next.token.script? with
    | some following => exact .report_bind first
    | none =>
        cases hatoms with
        | nil => exact (hscripted hbase .nil).weaken fun _ _ hs => hs.tracks hnext
        | cons hlatest hearlier =>
            exact (hscripted hlatest hearlier).weaken fun _ _ hs => hs.tracks hnext
  · cases hfollowing : next.token.script? with
    | some following =>
        obtain ⟨s, a, t, hread⟩ := hsucceeds
        rw [hfollowing] at hread
        exact absurd hread (Context.report_bind_ne_ok first _ _ _)
    | none =>
        rw [hfollowing] at hsucceeds
        cases hatoms with
        | nil => exact hends hbase hsucceeds
        | cons hlatest _ => exact hends hlatest hsucceeds

omit h in
theorem setLimits (value : Bool) (place place' : Span) {atoms atoms' : List Atom}
    (hatoms : Formula.Resembles atoms atoms') :
    Survives tail all (State.Tracks tail all false [])
      (Readers.setLimits context value place atoms)
      (Readers.setLimits (context.recording size) value place' atoms') Formula.Resembles := by
  cases hatoms with
  | nil => exact .report_bind first
  | @cons atom atom' earlier earlier' hlatest hearlier =>
      by_cases htakes : ∃ usual, atom.kind = .largeOperator usual ∧ atom.hasScripts = false
      · obtain ⟨usual, hkind, hfree⟩ := htakes
        have hkind' : atom'.kind = .largeOperator usual := by
          rcases hlatest.kind with hsame | ⟨-, hother⟩
          · exact hsame.trans hkind
          · exact absurd hkind (hother usual)
        have hfree' : atom'.hasScripts = false :=
          (congrArg₂ or (hlatest.scripts .superscript) (hlatest.scripts .subscript)).trans hfree
        intro s s' hs a t hread
        rw [Readers.setLimits_of_kind hkind hfree] at hread
        cases hread
        rw [Readers.setLimits_of_kind hkind' hfree']
        exact ⟨_, s', rfl, .inl ⟨.cons (hlatest.withLimits ..) hearlier, hs⟩⟩
      · rw [Readers.setLimits_of_not htakes]
        exact .report_bind first

/-! ### Fenced groups -/

omit h first in
theorem delimiter_finishes (hmode : context.mode = .collect) (fence : Fence) (place : Span) :
    Finishes all (Readers.delimiter context fence place) := by
  refine .peek_bind ?_
  rw [if_pos (.inl rfl)]
  exact .report_bind hmode rfl (.pure "")

omit h in
/-- A delimiter stands right behind its command, where no token is replaced. -/
theorem delimiter (fence : Fence) (place place' : Span) :
    Survives tail all (State.Tracks tail all true []) (Readers.delimiter context fence place)
      (Readers.delimiter (context.recording size) fence place') Any := by
  refine .peek_bind first (fun next next' own hnext hsame => ?_) fun _ _ =>
    delimiter_finishes rfl fence place'
  rw [hsame rfl]
  refine .ite Iff.rfl ?_ ?_
  · intro _
    exact .report_bind first
  · intro hother
    refine .advance_bind (fun hend => hother (.inl hend)) ?_
    obtain rfl := hnext.own_eq_nil (hsame rfl)
    cases Delimiter.glyph? next.token with
    | some glyph => exact .pure (fun _ _ => State.Tracks.relax) trivial
    | none => exact .report_bind first

theorem fenced (opened opened' : Span) :
    Survives tail all (State.Tracks tail all true []) (readers.fenced context opened)
      (readers'.fenced (context.recording size) opened') Atom.Resembles := by
  have hnone : ∀ stop, ¬(Lexeme.ending stop).token = .command "right" := nofun
  have hunclosed : ∀ (left : String) (content : Formula),
      Finishes all ((context.recording size).report ⟨.missingRight, opened'⟩ >>= fun _ =>
        lastEnd >>= fun stop =>
          Pure.pure (Atom.group content (some ⟨left, ""⟩) ⟨opened'.start, stop⟩)) :=
    fun left content => .report_bind rfl rfl fun s hs => ⟨_, s, rfl, hs⟩
  refine (delimiter first .left opened opened').bind (fun left left' _ => ?_)
    fun _ hsucceeds left => ?_
  · refine (rowInside h first .right opened opened').bind_peek first ?_ fun content => ?_
    · intro content content' next next' own _ hnext
      have hplain : ¬(Token.command "right").IsPlain := by
        rintro (_ | ⟨hdirective, -⟩)
        exact hdirective (by simp [Context.directives])
      refine .ite (hnext.token_eq_iff hplain) ?_ ?_
      · intro hright
        refine .advance_bind (by simp [hright]) ?_
        obtain ⟨-, rfl⟩ := hnext.same_of_not_plain (hright ▸ hplain)
        rw [hright]
        exact (delimiter first .right next.span next'.span).map_lastEnd fun _ _ _ _ _ =>
          .of_kind rfl rfl rfl
      · intro _
        exact .report_bind first
    · refine .peek_bind ?_
      rw [if_neg (hnone _)]
      exact hunclosed left' content
  · -- The first reading opens the group, so there is room for it.
    obtain ⟨s, a, t, hread⟩ := hsucceeds
    obtain ⟨content, middle, hrow, -⟩ := bind_eq_ok.mp hread
    have hroom := (Context.inGroup_eq_ok.mp hrow).1
    refine Finishes.bind (.inGroup hroom (h.ends _ [])) fun content => .peek_bind ?_
    rw [if_neg (hnone _)]
    exact hunclosed left content

/-! ### Tables -/

theorem gridStep (environment : Environment) (opened opened' : Span)
    (rows rows' : List (List Formula)) (cells cells' : List Formula) :
    Survives tail all (State.Tracks tail all false [])
      (readers.gridStep context environment opened rows cells)
      (readers'.gridStep (context.recording size) environment opened' rows' cells') Any := by
  refine (rowInside h first .cell opened opened').bind_peek first ?_ fun cell => ?_
  swap
  · refine .peek_bind ?_
    dsimp only [Lexeme.ending]
    rw [if_neg (by nofun)]
    exact .report_bind rfl rfl (.pure _)
  intro cell cell' next next' own _ hnext
  cases hnext with
  | unknown hsymbol _ _ =>
      -- With a symbol behind its cell, the table would not be closed.
      have hnewRow : next.token ≠ .command "\\" := by
        intro htoken
        have hplain := hsymbol.isPlain
        rw [htoken] at hplain
        cases hplain with
        | command hdirective _ => exact hdirective (by simp [Context.directives])
      generalize next.token = token at hsymbol hnewRow ⊢
      cases hsymbol with
      | character c => exact .report_bind first
      | command _ _ _ =>
          dsimp only
          rw [if_neg hnewRow]
          exact .report_bind first
  | same hsame =>
      rw [hsame]
      dsimp only
      split
      · rename_i hcolumn
        refine .advance_bind (by simp [hcolumn]) ?_
        rw [hcolumn]
        refine .ite Iff.rfl (fun _ => .report_bind first) fun _ => ?_
        exact h.grid first _ _ _ _ _ _ _
      · rename_i found hend
        refine .advance_bind (by simp [hend]) ?_
        rw [hend]
        refine .ite Iff.rfl (fun _ => .report_bind first) fun _ => ?_
        exact .pure (fun _ _ => id) trivial
      · refine .ite Iff.rfl ?_ ?_
        · intro hnewRow
          refine .advance_bind (by simp [hnewRow]) ?_
          rw [hnewRow]
          exact h.grid first _ _ _ _ _ _ _
        · intro _
          exact .report_bind first

theorem table (environment : Environment) (opened opened' : Span) :
    Survives tail all (State.Tracks tail all false []) (readers.table context environment opened)
      (readers'.table (context.recording size) environment opened') Atom.Resembles :=
  (gridStep h first environment opened opened' [] [] [] []).map_lastEnd fun _ _ _ _ _ =>
    .of_kind rfl rfl rfl

/-! ### Rows -/

theorem command (name : String) (span span' : Span) {atoms atoms' : List Atom}
    (hatoms : Formula.Resembles atoms atoms') :
    Survives tail all (State.Tracks tail all (Token.command name).isFence [])
      (readers.command context name span atoms)
      (readers'.command (context.recording size) name span' atoms') Formula.Resembles := by
  unfold Readers.command
  cases hfind : Command.find? name with
  | none => exact .report_bind first
  | some command =>
      cases command with
      | atom template =>
          have hread := structured h first template name span span'
          exact (hread.map fun _ _ hatom => .cons hatom hatoms).weaken fun _ _ =>
            State.Tracks.relax
      | limits value =>
          exact (setLimits first value span span' hatoms).weaken fun _ _ => State.Tracks.relax
      | left =>
          obtain rfl := Command.eq_left_of_find? hfind
          exact (fenced h first span span').map fun _ _ hatom => .cons hatom hatoms
      | right =>
          have hstray : Survives tail all
              (State.Tracks tail all (Token.command name).isFence [])
              (Readers.strayRight context span)
              (Readers.strayRight (context.recording size) span') Any := .report_bind first
          exact hstray.map fun _ _ _ => hatoms
      | newRow => exact .report_bind first

omit h in
theorem lexemeStep_symbol (hsymbol : l.token.IsSymbol) {atoms a : List Atom} {s t : State}
    (hread : readers.lexemeStep context l atoms s = .ok a t) :
    ∃ kind nucleus, a = .symbol kind nucleus l.span :: atoms ∧ t = s ∧
      ∀ usual, kind ≠ .largeOperator usual := by
  unfold Readers.lexemeStep at hread
  generalize l.token = token at hsymbol hread
  cases hsymbol with
  | character c =>
      dsimp only at hread
      cases hkind : Literal.kind? c with
      | none =>
          rw [hkind] at hread
          exact absurd hread (Context.report_bind_ne_ok first _ _ _)
      | some kind =>
          rw [hkind] at hread
          obtain ⟨rfl, rfl⟩ := pure_eq_ok.mp hread
          exact ⟨kind, _, rfl, rfl, fun _ => Literal.kind_ne_largeOperator hkind⟩
  | @command name template hfind harguments hkind =>
      have hoptional : template.optionalArgument = false := by
        rw [← Bool.not_eq_true, Command.optionalArgument_of_find? hfind]
        intro hradical
        rw [Command.arguments_of_find? hfind, hradical] at harguments
        cases harguments
      dsimp only at hread
      rw [command_atom hfind, Readers.structured, if_pos ⟨harguments, by simp [hoptional]⟩] at hread
      obtain ⟨rfl, rfl⟩ := pure_eq_ok.mp hread
      exact ⟨template.kind, template.nucleus, rfl, rfl, hkind⟩

omit h in
theorem lexemeStep_unknown {name : String} (hsymbol : l.token.IsSymbol)
    (htoken : l'.token = .command name) (hfind : Command.find? name = none)
    {atoms atoms' : List Atom} (hatoms : Formula.Resembles atoms atoms') :
    Survives tail all
      (State.Tracks tail all l.token.isFence [⟨.unknownCommand name, l'.span⟩])
      (readers.lexemeStep context l atoms)
      (readers'.lexemeStep (context.recording size) l' atoms') Formula.Resembles := by
  rintro s s' ⟨items, errors, hitems, hdisturbed, hall⟩ a t hread
  obtain ⟨kind, nucleus, rfl, rfl, hkind⟩ := lexemeStep_symbol first hsymbol hread
  have hread' : readers'.lexemeStep (context.recording size) l' atoms' s' =
      .ok (.symbol .error name l'.span :: atoms')
        { s' with reported := ⟨.unknownCommand name, l'.span⟩ :: s'.reported } := by
    rw [lexemeStep_command htoken, Readers.command, hfind]
    dsimp only
    rw [bind_of_ok (Context.report_collect rfl _ s')]
    rfl
  have hatom : (Atom.symbol kind nucleus l.span).Resembles
      (.symbol .error name l'.span) :=
    ⟨.inr ⟨rfl, hkind⟩, by rintro ⟨⟩ <;> rfl⟩
  exact ⟨_, _, hread',
    .inl ⟨.cons hatom hatoms, items, errors, hitems, hdisturbed.relax, by simpa using hall⟩⟩

theorem lexemeStep (hl : l.Counterpart l' own) {atoms atoms' : List Atom}
    (hatoms : Formula.Resembles atoms atoms') :
    Survives tail all (State.Tracks tail all l.token.isFence own)
      (readers.lexemeStep context l atoms)
      (readers'.lexemeStep (context.recording size) l' atoms') Formula.Resembles := by
  cases hl with
  | unknown hsymbol htoken hfind => exact lexemeStep_unknown first hsymbol htoken hfind hatoms
  | same hsame =>
      have hsymbol : ∀ kept kind nucleus, Survives tail all (State.Tracks tail all kept [])
          (Pure.pure (.symbol kind nucleus l.span :: atoms))
          (Pure.pure (.symbol kind nucleus l'.span :: atoms')) Formula.Resembles :=
        fun _ _ _ => .pure (fun _ _ => State.Tracks.relax)
          (.cons (.of_kind rfl rfl rfl) hatoms)
      have hnone : ∀ kept, Survives tail all (State.Tracks tail all kept []) (Pure.pure atoms)
          (Pure.pure atoms') Formula.Resembles :=
        fun _ => .pure (fun _ _ => State.Tracks.relax) hatoms
      unfold Readers.lexemeStep
      rw [hsame]
      cases htoken : l.token with
      | character c =>
          dsimp only
          cases Literal.kind? c with
          | some kind => exact hsymbol _ kind _
          | none => exact .report_bind first
      | bracketOpen => exact hsymbol _ _ _
      | bracketClose => exact hsymbol _ _ _
      | braceOpen =>
          exact (braced h first l.span l'.span).map_lastEnd fun _ _ _ _ _ =>
            .cons (.of_kind rfl rfl rfl) hatoms
      | braceClose => exact .report_bind first
      | superscriptMark => exact script h first .superscript l.span l'.span hatoms
      | subscriptMark => exact script h first .subscript l.span l'.span hatoms
      | command name => exact command h first name l.span l'.span hatoms
      | environmentBegin environment =>
          exact (table h first environment l.span l'.span).map fun _ _ hatom =>
            .cons hatom hatoms
      | environmentEnd _ => exact .report_bind first
      | columnMark => exact .report_bind first
      | blank => exact hnone _
      | comment => exact hnone _
      | sourceEnd => exact hnone _

theorem rowStep {atoms atoms' : List Atom} (hatoms : Formula.Resembles atoms atoms') :
    Survives tail all (State.Tracks tail all false []) (readers.rowStep context atoms)
      (readers'.rowStep (context.recording size) atoms') Formula.Resembles := by
  refine .peek_bind first (fun next next' own hnext _ => ?_) fun _ _ =>
    .peek_bind (.pure atoms'.reverse)
  have hcloses : (context.recording size).closes next'.token = context.closes next.token :=
    hnext.agree fun token htoken => htoken.not_closes context
  refine .ite (by rw [hcloses]) ?_ ?_
  · intro _
    exact .pure (fun _ _ hs => hs.tracks hnext) (List.rel_reverse hatoms)
  · intro hcloses
    refine .advance_bind (Context.ne_sourceEnd_of_closes (by simpa using hcloses)) ?_
    exact (lexemeStep h first hnext hatoms).bind (fun _ _ hatoms => h.row first hatoms)
      fun _ _ atoms => h.ends _ atoms

omit first in
theorem next : Survive tail all size readers.next readers'.next where
  row first _ _ hatoms := rowStep h first hatoms
  lexeme first _ _ _ hl _ _ hatoms := lexemeStep h first hl hatoms
  grid first := gridStep h first
  ends _ atoms := .peek_bind (.pure atoms.reverse)

end Survive

/-- Readers that always fail: what holds of all their results holds. -/
def failing : Readers where
  row _ _ := throw ⟨.emptyInput, {}⟩
  lexeme _ _ _ := throw ⟨.emptyInput, {}⟩
  grid _ _ _ _ _ := throw ⟨.emptyInput, {}⟩

theorem survive_iterate (tail : List Item) (all : List ParseError) (size bound : Nat) :
    Survive tail all size (Readers.next^[bound] failing) (Readers.next^[bound] idle) := by
  induction bound with
  | zero =>
      have hfails : ∀ {α : Type}, ¬Succeeds (throw ⟨.emptyInput, {}⟩ : Reading α) := by
        rintro α ⟨s, a, t, hread⟩
        exact throw_ne_ok _ a hread
      exact {
        row := fun _ _ _ _ => .of_not hfails
        lexeme := fun _ _ _ _ _ _ _ _ => .of_not hfails
        grid := fun _ _ _ _ _ _ _ _ => .of_not hfails
        ends := fun _ atoms => .pure atoms.reverse }
  | succ bound ih =>
      rw [Function.iterate_succ_apply', Function.iterate_succ_apply']
      exact ih.next

end Readers

/-! ## Whole sources -/

namespace Formula

variable {source source' : String} {options : ReadingOptions} {formula : Formula}

/-- A formula whose source has got errors and lost its tail is read to the end.  The errors are
reported, and only if there was a tail also what is missing. -/
theorem runReading_of_disturbed (hread : read source options = .ok formula)
    (hitems : significantItems source = items ++ tail)
    (h : Disturbed false items (significantItems source') errors) :
    ∃ found t missing, runReading .collect options source' = .ok found t ∧
      t.reported = missing ++ errors.reverse ∧ (tail = [] → missing = []) ∧
      ∀ error ∈ missing, error.cause.isUnfinished = true ∨
        error.cause = .emptyInput ∧ options.allowEmpty = false := by
  obtain ⟨t, hrun⟩ := readUntilError_eq_ok.mp (read_eq_ok_iff.mp hread)
  obtain ⟨bound, hbound⟩ : ∃ bound,
      bound = (significantItems source).length + (significantItems source').length + 1 := ⟨_, rfl⟩
  -- Both readings are run with the same number of levels.
  have hleft : (Readers.next^[bound] .failing).root (.ofSource .firstError options source)
      { rest := significantItems source } = .ok formula t := by
    have hroot := Readers.root_iterate .firstError options source (.inl rfl)
      (show (significantItems source).length < bound by omega) .failing
    rwa [List.append_nil, Reading.padded_nil, hrun] at hroot
  have hright : (Readers.next^[bound] .idle).root (.ofSource .collect options source')
      { rest := significantItems source' } = runReading .collect options source' := by
    have hroot := Readers.root_iterate .collect options source' (.inl rfl)
      (show (significantItems source').length < bound by omega) .idle
    rwa [List.append_nil, Reading.padded_nil] at hroot
  obtain ⟨hrow, hkept⟩ := (root_eq_ok rfl).mp hleft
  obtain ⟨found, t', hrow', hafter⟩ :=
    (Readers.survive_iterate tail errors source'.utf8ByteSize bound).row rfl .nil _
      { rest := significantItems source' } ⟨items, errors, hitems, h, rfl⟩ formula t hrow
  change (Readers.next^[bound] .idle).row (.ofSource .collect options source') [] _ = _ at hrow'
  rcases hafter with ⟨hformula, ahead, later, hahead, hlater, hall⟩ | ⟨htail, hended⟩
  · have hkept' : options.allowEmpty = true ∨ found ≠ [] := by
      refine hkept.imp id fun hne hnil => hne ?_
      rwa [hnil, Formula.Resembles, List.forall₂_nil_right_iff] at hformula
    have hrun' := hright.symm.trans (Readers.root_of_row_ok hrow' hkept')
    rw [(runReading_ok hrun).1, eq_comm, List.append_eq_nil_iff] at hahead
    rw [hahead.1, (runReading_ok hrun').1] at hlater
    cases hlater with
    | nil => exact ⟨found, t', [], hrun', by simpa using congrArg List.reverse hall, by simp⟩
  · obtain ⟨missing, hreported, hmissing⟩ := hended.reported
    by_cases hkept' : options.allowEmpty = true ∨ found ≠ []
    · exact ⟨found, t', missing, hright.symm.trans (Readers.root_of_row_ok hrow' hkept'), hreported,
        fun hnil => absurd hnil htail, fun error herror => .inl (hmissing error herror)⟩
    · have hstrict : options.allowEmpty = false := by simp_all
      have hnone : (found.isEmpty && !options.allowEmpty) = true := by simp_all
      let error : ParseError := ⟨.emptyInput, ⟨0, source'.utf8ByteSize⟩⟩
      refine ⟨found, { t' with reported := error :: t'.reported }, error :: missing, ?_,
        congrArg (error :: ·) hreported, fun hnil => absurd hnil htail, ?_⟩
      · rw [← hright, Readers.root, Reading.bind_of_ok hrow']
        exact congrFun (if_pos hnone) t'
      · refine List.forall_mem_cons.mpr ⟨.inr ⟨rfl, hstrict⟩, fun error herror => ?_⟩
        exact .inl (hmissing error herror)

theorem readAll_of_disturbed (hread : read source options = .ok formula)
    (h : Disturbed false (significantItems source) (significantItems source') errors)
    (hne : errors ≠ []) : readAll source' options = .error errors := by
  obtain ⟨found, t, missing, hrun, hreported, hmissing, -⟩ :=
    runReading_of_disturbed hread (List.append_nil _).symm h
  rw [hmissing rfl, List.nil_append] at hreported
  refine readAll_of_reported hrun (by rw [hreported, List.reverse_reverse]) hne ?_
  have hsorted : ((significantItems source').map Item.span).Pairwise fun a b => a.start < b.start :=
    List.pairwise_map.mpr (((Cursor.start source').items_pairwise _).filter _)
  have hspans : (errors.map ParseError.span).Pairwise fun a b => a.start ≤ b.start :=
    (hsorted.sublist h.spans_sublist).imp Nat.le_of_lt
  rwa [List.pairwise_map] at hspans

end Formula

end TexMath
