import TexMath.Proofs.Reading.Pairing

/-!
# The rules in step

From the laws of a pairing every rule follows, and so do the readers of every bound, as long as
fewer lexemes remain than the bound: whatever readers the bound starts from are then never asked.
-/

namespace TexMath

namespace Pairing

variable {P : Pairing}

structure Paired (P : Pairing) (bound : Nat) (readers readers' : Readers) : Prop where
  row : ∀ {c c' : Context} {atoms atoms' : List Atom}, P.contexts bound c c' →
    P.Rows atoms atoms' →
    P.Runs (P.Within bound) (readers.row c atoms) (readers'.row c' atoms') fun f f' s s' =>
      P.Gives bound P.Rows f f' s s' ∧ c.Stops s.rest
  lexeme : ∀ {c c' : Context} {l l' : Lexeme} {atoms atoms' : List Atom},
    P.contexts bound c c' → P.lexemes l l' → l.token ≠ .sourceEnd → P.Rows atoms atoms' →
    P.Runs (P.Within (bound - 1)) (readers.lexeme c l atoms) (readers'.lexeme c' l' atoms')
      (P.Gives (bound - 1) P.Rows)
  grid : ∀ {c c' : Context} {environment : Environment} {opened opened' : Lexeme}
    {rows rows' : List (List Formula)} {cells cells' : List Formula}, P.contexts bound c c' →
    P.lexemes opened opened' → opened.token = .environmentBegin environment →
    List.Forall₂ (List.Forall₂ P.Rows) rows rows' → List.Forall₂ P.Rows cells cells' →
    P.Runs (P.Within (bound - 1)) (readers.grid c environment opened.span rows cells)
      (readers'.grid c' environment opened'.span rows' cells')
      (P.Gives (bound - 1) (List.Forall₂ (List.Forall₂ P.Rows)))

theorem paired_zero (P : Pairing) (readers readers' : Readers) : P.Paired 0 readers readers' where
  row _ _ _ _ hs := absurd hs.2 (Nat.not_lt_zero _)
  lexeme _ _ _ _ _ _ hs := absurd hs.2 (Nat.not_lt_zero _)
  grid _ _ _ _ _ _ _ hs := absurd hs.2 (Nat.not_lt_zero _)

namespace Paired

variable (lawful : P.Lawful) {bound : Nat} {readers readers' : Readers} {c c' : Context}
  {atoms atoms' : List Atom}

variable (paired : P.Paired bound readers readers') (h : P.contexts (bound + 1) c c')
include lawful paired h

/-! ### Groups and arguments -/

theorem rowInside (closer : Closer) {opened opened' : Lexeme} (hopened : P.lexemes opened opened') :
    P.Runs (P.Within bound) (c.inGroup closer opened.span fun inside => readers.row inside [])
      (c'.inGroup closer opened'.span fun inside => readers'.row inside [])
      (P.Gives bound P.Rows) :=
  .inGroup lawful h hopened closer fun _ _ hinside =>
    (paired.row hinside .nil).weaken (fun _ _ => id) fun _ _ _ _ => And.left

theorem enclosed {closer : Closer} {close : Token} {cause : Cause} {opened opened' : Lexeme}
    (hclose : close ≠ .sourceEnd) (hplain : ∀ name, close ≠ .command name)
    (hopened : P.lexemes opened opened') (hcause : cause.At opened) :
    P.Runs (P.Within bound) (readers.enclosed c closer close cause opened.span)
      (readers'.enclosed c' closer close cause opened'.span) (P.Gives bound P.Rows) := by
  apply (rowInside lawful paired h closer hopened).seq
  intro content content' hcontent
  apply Runs.peek_bind lawful h
  intro next next' hnext
  apply Runs.ite (lawful.token_eq_iff hnext (Token.canonical_eq_of_ne_command hplain))
  · intro hnextClose
    apply Runs.advance_bind lawful (hnextClose ▸ hclose)
    exact .pure fun _ _ hs => ⟨hcontent, hs.1, Nat.lt_of_lt_of_le hs.2 (Nat.sub_le bound 1)⟩
  · intro _
    apply Runs.of_ahead
    apply Runs.report_bind lawful h hopened hcause
    exact .pure fun _ _ hs => ⟨hcontent, hs⟩

omit paired in
theorem missingArgument {command : String} {next next' : Lexeme} (hnext : P.lexemes next next')
    (hcommand : TakesArgument command) :
    P.Runs (P.Within bound) (Readers.missingArgument c command next.span)
      (Readers.missingArgument c' command next'.span) (P.Gives bound P.contents) :=
  fun _ _ hs => (lawful.missingArgument h hnext hcommand hs.1).imp fun _ _ _ _ hread _ ht =>
    ⟨ht.1, ht.2, State.ahead_of_rest (Context.missingArgument_rest hread) ▸ hs.2⟩

theorem argument {command : String} (hcommand : TakesArgument command) :
    P.Runs (P.Within bound) (readers.argument c command) (readers'.argument c' command)
      (P.Gives bound P.contents) := by
  apply Runs.peek_bind lawful h
  intro next next' hnext
  apply Runs.ite (lawful.token_eq_iff hnext (Token.canonical_eq_of_ne_command (by nofun)))
  · intro hopen
    apply Runs.advance_bind lawful (by simp [hopen])
    apply Runs.of_within_pred
    exact (enclosed lawful paired h (by simp) (by nofun) hnext (.openBrace hopen)).weaken
      (fun _ _ => id) fun _ _ _ _ ht => ⟨lawful.contents ht.1, ht.2⟩
  intro _
  apply Runs.ite (by rw [lawful.startsArgument_eq h hnext])
  · intro hstarts
    have hcloses := (Context.closes_of_startsArgument hstarts).1
    have htoken := Context.ne_sourceEnd_of_closes hcloses
    apply Runs.advance_bind lawful htoken
    apply Runs.of_gives_pred
    -- A single lexeme is read one level down, in the groups that are open here.
    have hread : ∀ d d', P.contexts bound d d' →
        P.Runs (P.Within (bound - 1))
          (readers.lexeme d next [] >>= fun atoms => Pure.pure atoms.reverse)
          (readers'.lexeme d' next' [] >>= fun atoms => Pure.pure atoms.reverse)
          (P.Gives (bound - 1) P.contents) := by
      intro d d' hinside
      apply (paired.lexeme hinside hnext htoken .nil).seq
      intro atoms atoms' hatoms
      exact .pure fun _ _ hs => ⟨lawful.contents (List.rel_reverse hatoms), hs⟩
    have hdeeper := Runs.deeper lawful h hnext c.groups hread
    rwa [show ({ c' with groups := c.groups } : Context) = c' by rw [lawful.groups h]] at hdeeper
  · intro _
    apply Runs.of_ahead
    exact missingArgument lawful h hnext hcommand

theorem arguments {command : String} (hcommand : TakesArgument command) (count : Nat) :
    P.Runs (P.Within bound) (readers.arguments c command count)
      (readers'.arguments c' command count) (P.Gives bound (List.Forall₂ P.contents)) := by
  induction count with
  | zero => exact .pure fun _ _ hs => ⟨.nil, hs⟩
  | succ count ih =>
      apply (argument lawful paired h hcommand).seq
      intro first first' hfirst
      apply ih.seq
      intro rest rest' hrest
      exact .pure fun _ _ hs => ⟨.cons hfirst hrest, hs⟩

theorem index? :
    P.Runs (P.Within bound) (readers.index? c) (readers'.index? c')
      (P.Gives bound fun index index' =>
        List.Forall₂ P.contents index.toList index'.toList) := by
  apply Runs.peek_bind lawful h
  intro next next' hnext
  apply Runs.ite (lawful.token_eq_iff hnext (Token.canonical_eq_of_ne_command (by nofun)))
  · intro hopen
    apply Runs.advance_bind lawful (by simp [hopen])
    apply Runs.of_within_pred
    apply (enclosed lawful paired h (by simp) (by nofun) hnext (.unbalancedBrackets hopen)).seq
    intro index index' hindex
    exact .pure fun _ _ hs => ⟨.cons (lawful.contents hindex) .nil, hs⟩
  · intro _
    apply Runs.of_ahead
    exact .pure fun _ _ hs => ⟨.nil, hs⟩

theorem structured {template : Template} {name : String} {place place' : Lexeme}
    (hplace : P.lexemes place place') (hfind : Command.find? name = some (.atom template)) :
    P.Runs (P.Within bound) (readers.structured c template name place.span)
      (readers'.structured c' template name place'.span) (P.Gives bound P.Atoms) := by
  by_cases hnone : template.arguments = 0 ∧ ¬ template.optionalArgument
  · unfold Readers.structured
    rw [if_pos hnone, if_pos hnone]
    exact .pure fun _ _ hs => ⟨.symbol lawful _ _ hplace, hs⟩
  · rw [Readers.structured_eq name place.span hnone, Readers.structured_eq name place'.span hnone]
    have hindex : P.Runs (P.Within bound)
        (if template.optionalArgument then readers.index? c else Pure.pure none)
        (if template.optionalArgument then readers'.index? c' else Pure.pure none)
        (P.Gives bound fun index index' =>
          List.Forall₂ P.contents index.toList index'.toList) :=
      .ite Iff.rfl (fun _ => index? lawful paired h) fun _ => .pure fun _ _ hs => ⟨.nil, hs⟩
    apply hindex.seq
    intro index index' hindex
    apply (arguments lawful paired h (.inr ⟨name, template, hfind, rfl⟩) template.arguments).seq
    intro arguments arguments' harguments
    apply Runs.lastEnd_bind lawful
    intro stop stop' hstop
    exact .pure fun _ _ hs =>
      ⟨.structured (List.rel_append harguments hindex) (hstop _ _ hplace), hs⟩

/-! ### Scripts and limits -/

theorem scripted {which : Script} {mark mark' : Lexeme} {atom atom' : Atom}
    (hmark : P.lexemes mark mark') (htoken : mark.token.script? = some which)
    (hatom : P.Atoms atom atom') :
    P.Runs (P.Within bound) (readers.scripted c which mark.span atom)
      (readers'.scripted c' which mark'.span atom') (P.Gives bound P.Atoms) := by
  have hargument := argument lawful paired h (takesArgument_mark which)
  have hproblem : Readers.scriptProblem? atom' which = Readers.scriptProblem? atom which := by
    simp only [Readers.scriptProblem?, hatom.kind, hatom.isSome_script]
  unfold Readers.scripted
  rw [hproblem]
  cases hcause : Readers.scriptProblem? atom which with
  | some cause =>
      apply Runs.report_bind lawful h hmark
      · unfold Readers.scriptProblem? at hcause
        split at hcause
        · cases hcause
          exact .scriptNotAllowed htoken
        · split at hcause <;> cases hcause
          exact .duplicateScript htoken
      · apply hargument.seq
        intro _ _ _
        exact .pure fun _ _ hs => ⟨hatom, hs⟩
  | none =>
      apply hargument.seq
      intro content content' hcontent
      apply Runs.lastEnd_bind lawful
      intro stop stop' hstop
      exact .pure fun _ _ hs =>
        ⟨hatom.withScript lawful which hcontent (hstop _ _ hmark), hs⟩

theorem script {which : Script} {mark mark' : Lexeme} (hmark : P.lexemes mark mark')
    (htoken : mark.token.script? = some which) (hatoms : P.Rows atoms atoms') :
    P.Runs (P.Within bound) (readers.script c which mark.span atoms)
      (readers'.script c' which mark'.span atoms') (P.Gives bound P.Rows) := by
  apply Runs.peek_bind lawful h
  intro next next' hnext
  apply Runs.of_ahead
  rw [lawful.script?_eq hnext]
  cases hfollowing : next.token.script? with
  | some following =>
      apply Runs.report_bind lawful h hnext
      · split
        · rename_i heq
          exact .duplicateScript (heq ▸ hfollowing)
        · exact .missingArgument (takesArgument_mark which)
      · exact .pure fun _ _ hs => ⟨hatoms, hs⟩
  | none =>
      cases hatoms with
      | nil =>
          apply (scripted lawful paired h hmark htoken (.scriptBase lawful hmark)).seq
          intro _ _ hatom
          exact .pure fun _ _ hs => ⟨.cons hatom .nil, hs⟩
      | cons hlatest hearlier =>
          apply (scripted lawful paired h hmark htoken hlatest).seq
          intro _ _ hatom
          exact .pure fun _ _ hs => ⟨.cons hatom hearlier, hs⟩

omit paired in
theorem setLimits {name : String} {value : Bool} {place place' : Lexeme}
    (hplace : P.lexemes place place') (htoken : place.token = .command name)
    (hfind : Command.find? name = some (.limits value)) (hatoms : P.Rows atoms atoms') :
    P.Runs (P.Within bound) (Readers.setLimits c value place.span atoms)
      (Readers.setLimits c' value place'.span atoms') (P.Gives bound P.Rows) := by
  have hcause : Cause.At place .invalidLimits := .invalidLimits htoken hfind
  cases hatoms with
  | nil =>
      apply Runs.report_bind lawful h hplace hcause
      exact .pure fun _ _ hs => ⟨.nil, hs⟩
  | @cons atom atom' earlier earlier' hlatest hearlier =>
      have hscripts : atom.hasScripts = atom'.hasScripts :=
        congrArg₂ or (hlatest.isSome_script .superscript) (hlatest.isSome_script .subscript)
      by_cases htakes : ∃ usual, atom.kind = .largeOperator usual ∧ atom.hasScripts = false
      · obtain ⟨usual, hkind, hfree⟩ := htakes
        intro s s' hs
        rw [Readers.setLimits_of_kind hkind hfree,
          Readers.setLimits_of_kind (hlatest.kind ▸ hkind) (hscripts ▸ hfree)]
        exact ⟨.cons (hlatest.withLimits lawful value (lawful.lexemeSpan hplace)) hearlier, hs⟩
      · rw [Readers.setLimits_of_not htakes,
          Readers.setLimits_of_not (by rwa [← hlatest.kind, ← hscripts])]
        apply Runs.report_bind lawful h hplace hcause
        exact .pure fun _ _ hs => ⟨.cons hlatest hearlier, hs⟩

/-! ### Fenced groups -/

omit paired in
theorem delimiter {fence : Fence} {place place' : Lexeme} (hplace : P.lexemes place place')
    (hcause : (Cause.missingDelimiter fence).At place) :
    P.Runs (P.Within bound) (Readers.delimiter c fence place.span)
      (Readers.delimiter c' fence place'.span) (P.Gives bound Eq) := by
  apply Runs.peek_bind lawful h
  intro next next' hnext
  have hends : next'.token = .sourceEnd ∨ next'.token = .braceClose ↔
      next.token = .sourceEnd ∨ next.token = .braceClose :=
    or_congr (lawful.token_eq_iff hnext (Token.canonical_eq_of_ne_command (by nofun)))
      (lawful.token_eq_iff hnext (Token.canonical_eq_of_ne_command (by nofun)))
  apply Runs.ite hends
  · intro _
    apply Runs.of_ahead
    apply Runs.report_bind lawful h hplace hcause
    exact .pure fun _ _ hs => ⟨rfl, hs⟩
  · intro hother
    have htoken : next.token ≠ .sourceEnd := fun hend => hother (.inl hend)
    apply Runs.advance_bind lawful htoken
    apply Runs.of_within_pred
    rw [lawful.glyph?_eq hnext]
    cases Delimiter.glyph? next.token with
    | some glyph => exact .pure fun _ _ hs => ⟨rfl, hs⟩
    | none =>
        apply Runs.invalidDelimiter_bind lawful h hnext htoken
        exact .pure fun _ _ hs => ⟨rfl, hs⟩

theorem fenced {opened opened' : Lexeme} (hopened : P.lexemes opened opened')
    (htoken : opened.token = .command "left") :
    P.Runs (P.Within bound) (readers.fenced c opened.span) (readers'.fenced c' opened'.span)
      (P.Gives bound P.Atoms) := by
  have hclosed : ∀ left content content' right, P.Rows content content' →
      P.Runs (P.Within bound)
        (lastEnd >>= fun stop =>
          Pure.pure (.group content (some ⟨left, right⟩) ⟨opened.span.start, stop⟩))
        (lastEnd >>= fun stop =>
          Pure.pure (.group content' (some ⟨left, right⟩) ⟨opened'.span.start, stop⟩))
        (P.Gives bound P.Atoms) := by
    intro left content content' right hcontent
    apply Runs.lastEnd_bind lawful
    intro stop stop' hstop
    exact .pure fun _ _ hs =>
      ⟨.group _ (lawful.contents hcontent) (hstop _ _ hopened), hs⟩
  apply (delimiter lawful h hopened (.missingLeftDelimiter htoken)).seq
  rintro left _ rfl
  apply (rowInside lawful paired h .right hopened).seq
  intro content content' hcontent
  apply Runs.peek_bind lawful h
  intro next next' hnext
  apply Runs.ite (lawful.token_eq_iff hnext Token.canonical_eq_right)
  · intro hright
    apply Runs.advance_bind lawful (by simp [hright])
    apply Runs.of_within_pred
    apply (delimiter lawful h hnext (.missingRightDelimiter hright)).seq
    rintro right _ rfl
    exact hclosed left content content' right hcontent
  · intro _
    apply Runs.of_ahead
    apply Runs.report_bind lawful h hopened (.missingRight htoken)
    exact hclosed left content content' "" hcontent

omit paired in
theorem strayRight {place place' : Lexeme} (hplace : P.lexemes place place')
    (htoken : place.token = .command "right") :
    P.Runs (P.Within bound) (Readers.strayRight c place.span) (Readers.strayRight c' place'.span)
      (P.Gives bound fun _ _ => True) := by
  apply Runs.report_bind lawful h hplace (.missingLeft htoken)
  apply Runs.peek_bind lawful h
  intro next next' hnext
  apply Runs.ite (by rw [lawful.glyph?_eq hnext])
  · intro hglyph
    have hne : next.token ≠ .sourceEnd := by
      intro hend
      rw [hend] at hglyph
      cases hglyph
    exact Runs.of_gives_pred (Runs.advance lawful hne)
  · intro _
    apply Runs.of_ahead
    exact .pure fun _ _ hs => ⟨trivial, hs⟩

/-! ### Tables -/

omit lawful paired h in
theorem closeGrid {rows rows' : List (List Formula)} {cells cells' : List Formula}
    (hrows : List.Forall₂ (List.Forall₂ P.Rows) rows rows')
    (hcells : List.Forall₂ P.Rows cells cells') :
    List.Forall₂ (List.Forall₂ P.Rows) (Readers.closeGrid rows cells)
      (Readers.closeGrid rows' cells') := by
  have hiff : cells = [[]] ↔ cells' = [[]] := by
    constructor
    · rintro rfl
      obtain _ | ⟨hcell, hend⟩ := hcells
      cases hcell
      cases hend
      rfl
    · rintro rfl
      obtain _ | ⟨hcell, hend⟩ := hcells
      cases hcell
      cases hend
      rfl
  by_cases hempty : cells = [[]]
  · rw [hempty, hiff.mp hempty]
    exact List.rel_reverse hrows
  · rw [Readers.closeGrid_of_ne rows hempty,
      Readers.closeGrid_of_ne rows' fun hempty' => hempty (hiff.mpr hempty')]
    exact List.rel_reverse (.cons (List.rel_reverse hcells) hrows)

theorem gridStep {environment : Environment} {opened opened' : Lexeme}
    {rows rows' : List (List Formula)} {cells cells' : List Formula}
    (hopened : P.lexemes opened opened') (htoken : opened.token = .environmentBegin environment)
    (hrows : List.Forall₂ (List.Forall₂ P.Rows) rows rows')
    (hcells : List.Forall₂ P.Rows cells cells') :
    P.Runs (P.Within bound) (readers.gridStep c environment opened.span rows cells)
      (readers'.gridStep c' environment opened'.span rows' cells')
      (P.Gives bound (List.Forall₂ (List.Forall₂ P.Rows))) := by
  have hfewer := lawful.fewer h
  apply (rowInside lawful paired h .cell hopened).seq
  intro cell cell' hcell
  have hall : List.Forall₂ P.Rows (cell :: cells) (cell' :: cells') := .cons hcell hcells
  have hclosed : P.Runs (P.Within bound) (Pure.pure (Readers.closeGrid rows (cell :: cells)))
      (Pure.pure (Readers.closeGrid rows' (cell' :: cells')))
      (P.Gives bound (List.Forall₂ (List.Forall₂ P.Rows))) :=
    .pure fun _ _ hs => ⟨closeGrid hrows hall, hs⟩
  apply Runs.peek_bind lawful h
  intro next next' hnext
  obtain hsame | ⟨name, name', hname, hname', hne⟩ :=
    Token.eq_or_command_of_canonical_eq (lawful.token hnext)
  · rw [← hsame]
    split
    · rename_i hmark
      apply Runs.advance_bind lawful (by simp [hmark])
      apply Runs.of_gives_pred
      have hread := paired.grid hfewer hopened htoken hrows hall
      split
      · exact Runs.report_bind lawful h hnext (.columnMark hmark) hread
      · exact hread
    · rename_i found hend
      apply Runs.advance_bind lawful (by simp [hend])
      apply Runs.of_within_pred
      split
      · exact Runs.report_bind lawful h hnext (.mismatchedEnvironment hend) hclosed
      · exact hclosed
    · apply Runs.ite Iff.rfl
      · intro hrow
        apply Runs.advance_bind lawful (by simp [hrow])
        apply Runs.of_gives_pred
        exact paired.grid hfewer hopened htoken (.cons (List.rel_reverse hall) hrows) .nil
      · intro _
        apply Runs.of_ahead
        exact Runs.report_bind lawful h hopened (.missingEnd htoken) hclosed
  · -- The command that ends a row has no other name.
    have hrow : next'.token = .command "\\" ↔ next.token = .command "\\" :=
      lawful.token_eq_iff hnext Token.canonical_eq_newRow
    rw [hname, hname'] at hrow ⊢
    have hother : Token.command name ≠ .command "\\" := fun heq =>
      hne (Token.command.inj (heq.trans (hrow.mpr heq).symm))
    dsimp only
    rw [if_neg hother, if_neg (mt hrow.mp hother)]
    apply Runs.of_ahead
    exact Runs.report_bind lawful h hopened (.missingEnd htoken) hclosed

theorem table {environment : Environment} {opened opened' : Lexeme}
    (hopened : P.lexemes opened opened')
    (htoken : opened.token = .environmentBegin environment) :
    P.Runs (P.Within bound) (readers.table c environment opened.span)
      (readers'.table c' environment opened'.span) (P.Gives bound P.Atoms) := by
  apply (gridStep lawful paired h hopened htoken .nil .nil).seq
  intro rows rows' hrows
  apply Runs.lastEnd_bind lawful
  intro stop stop' hstop
  have hcells : List.Forall₂ (List.Forall₂ P.contents) rows rows' :=
    hrows.imp fun _ _ hcells => hcells.imp fun _ _ => lawful.contents
  exact .pure fun _ _ hs => ⟨.table hcells (hstop _ _ hopened), hs⟩

/-! ### Rows -/

omit paired h in
theorem command_of_symbol {name name' : String} {place place' : Lexeme}
    (hplace : P.lexemes place place') {template : Template}
    (hfind : Command.find? name = some (.atom template))
    (hfind' : Command.find? name' = some (.atom template)) (harguments : template.arguments = 0)
    (hoptional : template.optionalArgument = false) (hatoms : P.Rows atoms atoms') :
    P.Runs (P.Within bound) (readers.command c name place.span atoms)
      (readers'.command c' name' place'.span atoms') (P.Gives bound P.Rows) := by
  have hnone : template.arguments = 0 ∧ ¬ template.optionalArgument :=
    ⟨harguments, by simp [hoptional]⟩
  rw [Readers.command_atom hfind, Readers.command_atom hfind']
  unfold Readers.structured
  rw [if_pos hnone, if_pos hnone]
  exact .pure fun _ _ hs => ⟨.cons (.symbol lawful _ _ hplace) hatoms, hs⟩

theorem command {name : String} {place place' : Lexeme} (hplace : P.lexemes place place')
    (htoken : place.token = .command name) (hatoms : P.Rows atoms atoms') :
    P.Runs (P.Within bound) (readers.command c name place.span atoms)
      (readers'.command c' name place'.span atoms') (P.Gives bound P.Rows) := by
  unfold Readers.command
  cases hfind : Command.find? name with
  | none =>
      apply Runs.report_bind lawful h hplace (.unknownCommand htoken hfind)
      exact .pure fun _ _ hs => ⟨.cons (.symbol lawful _ _ hplace) hatoms, hs⟩
  | some command =>
      cases command with
      | atom template =>
          apply (structured lawful paired h hplace hfind).seq
          intro _ _ hatom
          exact .pure fun _ _ hs => ⟨.cons hatom hatoms, hs⟩
      | limits value => exact setLimits lawful h hplace htoken hfind hatoms
      | left =>
          obtain rfl := Command.eq_left_of_find? hfind
          apply (fenced lawful paired h hplace htoken).seq
          intro _ _ hatom
          exact .pure fun _ _ hs => ⟨.cons hatom hatoms, hs⟩
      | right =>
          obtain rfl := Command.eq_right_of_find? hfind
          apply (strayRight lawful h hplace htoken).seq
          intro _ _ _
          exact .pure fun _ _ hs => ⟨hatoms, hs⟩
      | newRow =>
          obtain rfl := Command.eq_newRow_of_find? hfind
          apply Runs.report_bind lawful h hplace (.newRow htoken)
          exact .pure fun _ _ hs => ⟨hatoms, hs⟩

theorem lexemeStep {l l' : Lexeme} (hl : P.lexemes l l') (hatoms : P.Rows atoms atoms') :
    P.Runs (P.Within bound) (readers.lexemeStep c l atoms) (readers'.lexemeStep c' l' atoms')
      (P.Gives bound P.Rows) := by
  have hkept : P.Runs (P.Within bound) (Pure.pure atoms) (Pure.pure atoms')
      (P.Gives bound P.Rows) := .pure fun _ _ hs => ⟨hatoms, hs⟩
  have hsymbol : ∀ kind nucleus, P.Runs (P.Within bound)
      (Pure.pure (.symbol kind nucleus l.span :: atoms))
      (Pure.pure (.symbol kind nucleus l'.span :: atoms')) (P.Gives bound P.Rows) :=
    fun kind nucleus => .pure fun _ _ hs => ⟨.cons (.symbol lawful kind nucleus hl) hatoms, hs⟩
  obtain hsame | ⟨name, name', hname, hname', hne⟩ :=
    Token.eq_or_command_of_canonical_eq (lawful.token hl)
  swap
  · have hcanonical := lawful.token hl
    rw [hname, hname'] at hcanonical
    obtain heq | ⟨template, hfind, hfind', harguments, hoptional⟩ :=
      Command.eq_or_symbol_of_canonicalName_eq (Token.command.inj hcanonical)
    · exact absurd heq hne
    · rw [Readers.lexemeStep_command hname, Readers.lexemeStep_command hname']
      exact command_of_symbol lawful hl hfind hfind' harguments hoptional hatoms
  unfold Readers.lexemeStep
  rw [← hsame]
  cases htoken : l.token with
  | character c =>
      dsimp only
      cases hkind : Literal.kind? c with
      | some kind => exact hsymbol kind _
      | none =>
          exact Runs.report_bind lawful h hl (.unexpectedCharacter htoken hkind) (hsymbol _ _)
  | bracketOpen => exact hsymbol _ _
  | bracketClose => exact hsymbol _ _
  | braceOpen =>
      apply (enclosed lawful paired h (by simp) (by nofun) hl (.openBrace htoken)).seq
      intro content content' hcontent
      apply Runs.lastEnd_bind lawful
      intro stop stop' hstop
      exact .pure fun _ _ hs =>
        ⟨.cons (.group none (lawful.contents hcontent) (hstop _ _ hl)) hatoms, hs⟩
  | braceClose => exact Runs.report_bind lawful h hl (.closeBrace htoken) hkept
  | superscriptMark => exact script lawful paired h hl (by rw [htoken]; rfl) hatoms
  | subscriptMark => exact script lawful paired h hl (by rw [htoken]; rfl) hatoms
  | command name => exact command lawful paired h hl htoken hatoms
  | environmentBegin environment =>
      apply (table lawful paired h hl htoken).seq
      intro _ _ hatom
      exact .pure fun _ _ hs => ⟨.cons hatom hatoms, hs⟩
  | environmentEnd environment => exact Runs.report_bind lawful h hl (.missingBegin htoken) hkept
  | columnMark => exact Runs.report_bind lawful h hl (.columnMark htoken) hkept
  | blank => exact hkept
  | comment => exact hkept
  | sourceEnd => exact hkept

theorem rowStep (hatoms : P.Rows atoms atoms') :
    P.Runs (P.Within (bound + 1)) (readers.rowStep c atoms) (readers'.rowStep c' atoms')
      fun f f' s s' => P.Gives (bound + 1) P.Rows f f' s s' ∧ c.Stops s.rest := by
  apply Runs.peek_bind lawful h
  intro next next' hnext
  apply Runs.ite (by rw [lawful.closes_eq h hnext])
  · intro hcloses
    refine .pure fun _ _ hs => ⟨⟨List.rel_reverse hatoms, hs.within⟩, hs.clear, ?_⟩
    rw [← hs.upcoming]
    exact hcloses
  · intro hcloses
    apply Runs.advance_bind lawful (Context.ne_sourceEnd_of_closes (by simpa using hcloses))
    apply (lexemeStep lawful paired h hnext hatoms).seq
    intro atoms atoms' hatoms
    exact (paired.row (lawful.fewer h) hatoms).weaken (fun _ _ => id) fun _ _ _ _ ht =>
      ⟨⟨ht.1.1, ht.1.2.1, Nat.lt_succ_of_lt ht.1.2.2⟩, ht.2⟩

omit h in
theorem next : P.Paired (bound + 1) readers.next readers'.next where
  row h hatoms := rowStep lawful paired h hatoms
  lexeme h hl _ hatoms := lexemeStep lawful paired h hl hatoms
  grid h hopened htoken hrows hcells := gridStep lawful paired h hopened htoken hrows hcells

end Paired

theorem paired_iterate (lawful : P.Lawful) (bound : Nat) (readers readers' : Readers) :
    P.Paired bound (Readers.next^[bound] readers) (Readers.next^[bound] readers') := by
  induction bound with
  | zero => exact paired_zero P readers readers'
  | succ bound ih =>
      rw [Function.iterate_succ_apply', Function.iterate_succ_apply']
      exact ih.next lawful

theorem Paired.root {bound : Nat} {readers readers' : Readers}
    (paired : P.Paired bound readers readers') {c c' : Context} (h : P.contexts bound c c')
    (hallows : c.options.allowEmpty = c'.options.allowEmpty)
    (hempty : c.options.allowEmpty = false → ∀ s s', P.states s s' →
      P.Outcomes (fun _ _ => P.states) (c.report ⟨.emptyInput, ⟨0, c.sourceEnd⟩⟩ s)
        (c'.report ⟨.emptyInput, ⟨0, c'.sourceEnd⟩⟩ s')) :
    P.Runs (P.Within bound) (readers.root c) (readers'.root c') fun f f' s s' =>
      P.Rows f f' ∧ P.states s s' ∧ c.Stops s.rest := by
  apply (paired.row h .nil).bind
  intro f f' s s' hs
  have hatoms : f.isEmpty = f'.isEmpty := by
    rw [Bool.eq_iff_iff, List.isEmpty_iff_length_eq_zero, List.isEmpty_iff_length_eq_zero,
      hs.1.1.length_eq]
  have hreport : c.options.allowEmpty = false → P.Runs (fun t t' => P.states t t' ∧ c.Stops t.rest)
      (c.report ⟨.emptyInput, ⟨0, c.sourceEnd⟩⟩) (c'.report ⟨.emptyInput, ⟨0, c'.sourceEnd⟩⟩)
      fun _ _ t t' => P.states t t' ∧ c.Stops t.rest :=
    fun hstrict _ _ ht => (hempty hstrict _ _ ht.1).imp fun _ _ _ _ hread _ hafter =>
      ⟨hafter, Context.report_rest hread ▸ ht.2⟩
  rw [← hatoms, ← hallows]
  split
  · rename_i hreported
    have hstrict : c.options.allowEmpty = false := by simp_all
    exact (hreport hstrict).bind (fun _ _ => .pure fun _ _ ht => ⟨hs.1.1, ht⟩) s s'
      ⟨hs.1.2.1, hs.2⟩
  · exact ⟨hs.1.1, hs.1.2.1, hs.2⟩

end Pairing

end TexMath
