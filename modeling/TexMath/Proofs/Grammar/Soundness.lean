import TexMath.Proofs.Grammar.Progress
import TexMath.Proofs.Reading.Rules
import TexMath.Proofs.Symbol.Command
import TexMath.Proofs.Symbol.Literal

/-!
# What a reading accepts, the grammar derives

A reading that stops at the first error and fills in nothing has, when it returns, taken lexemes
that derive what it returns, and has had room for its nesting.  As for the converse, the proof goes
by the bound on the readers.
-/

namespace TexMath

open Grammar Reading

variable {context : Context} {s s' : State} {lexeme : Lexeme} {atoms : List Atom}

structure Context.Strict (context : Context) : Prop where
  first : context.mode = .firstError
  exact : context.options.fillMissing = false

theorem Context.Strict.inside (strict : context.Strict) (closer : Closer) :
    (context.inside closer).Strict := ⟨strict.first, strict.exact⟩

theorem Context.inIndex_inside (context : Context) (closer : Closer) :
    (context.inside closer).inIndex = (closer == .bracket) := by
  cases closer <;> rfl

def State.Significant (s : State) : Prop := ∀ item ∈ s.rest, item.isSignificant = true

namespace State

theorem Takes.significant {lexemes : List Lexeme} (h : s.Takes lexemes s')
    (hs : s.Significant) : s'.Significant := fun item hitem =>
  hs item (by rw [h.rest]; exact List.mem_append_right _ hitem)

theorem Takes.not_trivia {lexemes : List Lexeme} (h : s.Takes (lexeme :: lexemes) s')
    (hs : s.Significant) : lexeme.token.isTrivia = false := by
  simpa [Item.isSignificant] using hs (.lexeme lexeme) (by rw [h.rest]; simp)

end State

namespace Readers

/-- What the readers accept from fewer items than the bound, the grammar derives. -/
structure Sound (readers : Readers) (bound : Nat) : Prop where
  row : ∀ (context : Context) {atoms : List Atom} {formula : Formula} {s s' : State},
    context.Strict → s.Significant → s.rest.length < bound →
    readers.row context atoms s = .ok formula s' →
    ∃ lexemes, s.Takes lexemes s' ∧ Steps context.inIndex atoms lexemes formula.reverse ∧
      context.Stops s'.rest ∧ Formula.nest formula ≤ max (Formula.nest atoms) context.room
  lexeme : ∀ (context : Context) {lexeme : Lexeme} {atoms result : List Atom} {s s' : State},
    context.Strict → s.Significant → s.rest.length + 1 < bound → s.lastEnd = lexeme.span.stop →
    lexeme.token.isTrivia = false → context.closes lexeme.token = false →
    readers.lexeme context lexeme atoms s = .ok result s' →
    ∃ lexemes, s.Takes lexemes s' ∧ Step context.inIndex atoms (lexeme :: lexemes) result ∧
      Formula.nest result ≤ max (Formula.nest atoms) context.room
  grid : ∀ (context : Context) {environment : Environment} {opened : Span}
    {rows result : List (List Formula)} {cells : List Formula} {s s' : State},
    context.Strict → s.Significant → s.rest.length + 1 < bound →
    readers.grid context environment opened rows cells s = .ok result s' →
    ∃ lexemes closed more others, s.Takes (lexemes ++ [closed]) s' ∧
      Grid environment lexemes (more :: others) ∧ closed.token = .environmentEnd environment ∧
      result = dropEmptyRow (rows.reverse ++ (cells.reverse ++ more) :: others) ∧
      ∀ row ∈ more :: others, ∀ cell ∈ row, Formula.nest cell < context.room

namespace Sound

variable {readers : Readers} {bound : Nat} (sound : readers.Sound bound)
include sound

/-! ### Groups and arguments -/

theorem inGroup {closer : Closer} {place : Span} {content : Formula} (strict : context.Strict)
    (hs : s.Significant) (hbound : s.rest.length < bound)
    (h : context.inGroup closer place (fun inside => readers.row inside []) s = .ok content s') :
    ∃ lexemes, s.Takes lexemes s' ∧ Row (closer == .bracket) lexemes content ∧
      (context.inside closer).Stops s'.rest ∧ Formula.nest content < context.room := by
  obtain ⟨hdepth, hrow⟩ := Context.inGroup_eq_ok.mp h
  obtain ⟨lexemes, htakes, hsteps, hstops, hnest⟩ :=
    sound.row (context.inside closer) (strict.inside closer) hs hbound hrow
  rw [Context.inIndex_inside] at hsteps
  rw [Context.room_inside, Formula.nest_nil] at hnest
  refine ⟨lexemes, htakes, row_iff_steps.mpr hsteps, hstops, ?_⟩
  unfold Context.room at hnest ⊢
  omega

theorem enclosed {closer : Closer} {close : Token} {cause : Cause} {opened : Span}
    {content : Formula} (strict : context.Strict) (hs : s.Significant)
    (hbound : s.rest.length < bound) (hclose : close ≠ .sourceEnd)
    (h : readers.enclosed context closer close cause opened s = .ok content s') :
    ∃ lexemes closed, s.Takes (lexemes ++ [closed]) s' ∧ Row (closer == .bracket) lexemes content ∧
      closed.token = close ∧ Formula.nest content < context.room := by
  unfold Readers.enclosed at h
  rw [bind_eq_ok] at h
  obtain ⟨found, middle, hread, h⟩ := h
  obtain ⟨lexemes, htakes, hrow, -, hnest⟩ := sound.inGroup strict hs hbound hread
  rw [Context.peek_bind_eq_ok strict.first] at h
  generalize hnext : context.upcoming middle.rest = next at h
  dsimp only at h
  obtain ⟨-, h⟩ := h
  split at h
  · rename_i htoken
    have hclosed := State.takes_upcoming hnext.symm (htoken ▸ hclose)
    rw [bind_of_ok (State.advance_apply middle next), pure_eq_ok] at h
    obtain ⟨rfl, rfl⟩ := h
    exact ⟨lexemes, next, htakes.append hclosed, hrow, htoken, hnest⟩
  · exact absurd h (Context.report_bind_ne_ok strict.first _ _ _)

theorem braced {opened : Span} {content : Formula} (strict : context.Strict)
    (hs : s.Significant) (hbound : s.rest.length < bound)
    (h : readers.braced context opened s = .ok content s') :
    ∃ lexemes closed, s.Takes (lexemes ++ [closed]) s' ∧ Row false lexemes content ∧
      closed.token = .braceClose ∧ Formula.nest content < context.room := by
  unfold Readers.braced at h
  exact sound.enclosed strict hs hbound (by simp) h

theorem argument {command : String} {content : Formula} (strict : context.Strict)
    (hs : s.Significant) (hbound : s.rest.length < bound)
    (h : readers.argument context command s = .ok content s') :
    ∃ lexemes, s.Takes lexemes s' ∧ Argument context.inIndex lexemes content ∧
      Formula.nest content < context.room := by
  unfold Readers.argument at h
  rw [Context.peek_bind_eq_ok strict.first] at h
  generalize hnext : context.upcoming s.rest = next at h
  obtain ⟨-, h⟩ := h
  split at h
  · rename_i htoken
    have hopened := State.takes_upcoming hnext.symm (by simp [htoken])
    have hshorter := hopened.shorter
    rw [bind_of_ok (State.advance_apply s next)] at h
    obtain ⟨lexemes, closed, htakes, hrow, hclosed, hnest⟩ :=
      sound.braced strict (hopened.significant hs) (by omega) h
    exact ⟨_, hopened.append htakes, .braced htoken hrow hclosed, hnest⟩
  · rename_i hbrace
    split at h
    · rename_i hstarts
      obtain ⟨hcloses, hmark⟩ := Context.closes_of_startsArgument hstarts
      have hfirst := State.takes_upcoming hnext.symm (Context.ne_sourceEnd_of_closes hcloses)
      have hshorter := hfirst.shorter
      rw [bind_of_ok (State.advance_apply s next), Context.deeper_eq_ok, bind_eq_ok] at h
      obtain ⟨hdepth, result, middle, hread, h⟩ := h
      rw [pure_eq_ok] at h
      obtain ⟨rfl, rfl⟩ := h
      obtain ⟨lexemes, htakes, hstep, hnest⟩ := sound.lexeme
        { context with depth := context.depth + 1 } ⟨strict.first, strict.exact⟩
        (hfirst.significant hs) (by omega) rfl (hfirst.not_trivia hs) hcloses hread
      rw [Formula.nest_nil] at hnest
      have hroom : Formula.nest result.reverse < context.room := by
        rw [Formula.nest_reverse]
        unfold Context.room at hnest ⊢
        dsimp only at hnest
        omega
      cases hstep with
      | nucleus hnucleus => exact ⟨_, hfirst.append htakes, .bare hbrace hnucleus, hroom⟩
      | scriptBase hsome _ =>
          rw [hmark] at hsome
          cases hsome
    · unfold missingArgument at h
      rw [strict.exact, if_neg (by decide)] at h
      exact absurd h (Context.report_bind_ne_ok strict.first _ _ _)

theorem arguments {command : String} {count : Nat} {contents : List Formula}
    (strict : context.Strict) (hs : s.Significant) (hbound : s.rest.length < bound)
    (h : readers.arguments context command count s = .ok contents s') :
    ∃ lexemes, s.Takes lexemes s' ∧ Arguments context.inIndex lexemes contents ∧
      contents.length = count ∧ ∀ content ∈ contents, Formula.nest content < context.room := by
  induction count generalizing s contents with
  | zero =>
      obtain ⟨rfl, rfl⟩ := pure_eq_ok.mp h
      exact ⟨[], .refl s, .nil, rfl, by simp⟩
  | succ count ih =>
      unfold Readers.arguments at h
      rw [bind_eq_ok] at h
      obtain ⟨content, middle, hread, h⟩ := h
      rw [bind_eq_ok] at h
      obtain ⟨others, last, hrest, h⟩ := h
      obtain ⟨rfl, rfl⟩ := pure_eq_ok.mp h
      obtain ⟨first, htakes, hargument, hnest⟩ := sound.argument strict hs hbound hread
      have hlength := htakes.length_eq
      obtain ⟨rest, htakesRest, harguments, hcount, hnests⟩ :=
        ih (htakes.significant hs) (by omega) hrest
      exact ⟨first ++ rest, htakes.append htakesRest, .cons hargument harguments,
        by simp [hcount], List.forall_mem_cons.mpr ⟨hnest, hnests⟩⟩

theorem index? {index : Option Formula} (strict : context.Strict) (hs : s.Significant)
    (hbound : s.rest.length < bound) (h : readers.index? context s = .ok index s') :
    (index = none ∧ s' = s ∧ (context.upcoming s.rest).token ≠ .bracketOpen) ∨
      ∃ content opened lexemes closed, index = some content ∧ opened.token = .bracketOpen ∧
        Row true lexemes content ∧ closed.token = .bracketClose ∧
        s.Takes (opened :: lexemes ++ [closed]) s' ∧ Formula.nest content < context.room := by
  unfold Readers.index? at h
  rw [Context.peek_bind_eq_ok strict.first] at h
  generalize hnext : context.upcoming s.rest = next at h ⊢
  obtain ⟨-, h⟩ := h
  split at h
  · rename_i htoken
    have hopened := State.takes_upcoming hnext.symm (by simp [htoken])
    have hshorter := hopened.shorter
    rw [bind_of_ok (State.advance_apply s next), bind_eq_ok] at h
    obtain ⟨content, middle, hread, h⟩ := h
    obtain ⟨rfl, rfl⟩ := pure_eq_ok.mp h
    obtain ⟨lexemes, closed, htakes, hrow, hclosed, hnest⟩ :=
      sound.enclosed strict (hopened.significant hs) (by omega) (by simp) hread
    exact .inr ⟨content, next, lexemes, closed, rfl, htoken, hrow, hclosed,
      hopened.append htakes, hnest⟩
  · rename_i hother
    obtain ⟨rfl, rfl⟩ := pure_eq_ok.mp h
    exact .inl ⟨rfl, rfl, hother⟩

theorem structured {name : String} {template : Template} {atom : Atom} (strict : context.Strict)
    (hs : s.Significant) (hbound : s.rest.length < bound) (hend : s.lastEnd = lexeme.span.stop)
    (htoken : lexeme.token = .command name) (hfind : Command.find? name = some (.atom template))
    (h : readers.structured context template name lexeme.span s = .ok atom s') :
    ∃ lexemes, s.Takes lexemes s' ∧ Nucleus context.inIndex (lexeme :: lexemes) atom ∧
      atom.nest ≤ context.room := by
  by_cases hnone : template.arguments = 0 ∧ ¬ template.optionalArgument
  · unfold Readers.structured at h
    rw [if_pos hnone] at h
    obtain ⟨rfl, rfl⟩ := pure_eq_ok.mp h
    exact ⟨[], .refl s, .command htoken hfind (by simp) .nil hnone.1.symm,
      Atom.nest_le_of_find? hfind (by simp)⟩
  rw [structured_eq name lexeme.span hnone, bind_eq_ok] at h
  obtain ⟨index, middle, hindex, h⟩ := h
  rw [bind_eq_ok] at h
  obtain ⟨contents, last, harguments, h⟩ := h
  obtain ⟨rfl, rfl⟩ : _ = atom ∧ last = s' := pure_eq_ok.mp h
  have hcases : (index = none ∧ middle = s ∧
      (template.optionalArgument = true → (context.upcoming s.rest).token ≠ .bracketOpen)) ∨
      template.optionalArgument = true ∧ readers.index? context s = .ok index middle ∧
        index ≠ none := by
    split at hindex
    · rename_i hoptional
      rcases sound.index? strict hs hbound hindex with ⟨rfl, rfl, hother⟩ | ⟨_, _, _, _, rfl, _⟩
      · exact .inl ⟨rfl, rfl, fun _ => hother⟩
      · exact .inr ⟨hoptional, hindex, by simp⟩
    · rename_i hoptional
      obtain ⟨rfl, rfl⟩ := pure_eq_ok.mp hindex
      exact .inl ⟨rfl, rfl, fun h => absurd h hoptional⟩
  rcases hcases with ⟨rfl, rfl, hother⟩ | ⟨hoptional, hindex, hsome⟩
  · obtain ⟨lexemes, htakes, harguments, hlength, hnests⟩ :=
      sound.arguments strict hs hbound harguments
    have hnext : template.optionalArgument = true →
        ∀ next ∈ lexemes.head?, next.token ≠ .bracketOpen := by
      intro hoptional next hnext
      cases lexemes with
      | nil => cases hnext
      | cons first rest =>
          cases hnext
          have hfirst := hother hoptional
          rwa [htakes.rest_eq_cons] at hfirst
    refine ⟨lexemes, htakes, ?_, by simpa using Atom.nest_le_of_find? hfind hnests⟩
    rw [htakes.lastEnd, hend]
    simpa using Nucleus.command htoken hfind hnext harguments hlength
  · obtain ⟨rfl, -⟩ | ⟨content, opened, lexemes, closed, rfl, hopened, hrow, hclosed, htakes,
      hnest⟩ := sound.index? strict hs hbound hindex
    · exact absurd rfl hsome
    have htaken := htakes.length_eq
    obtain ⟨rest, htakesRest, harguments, hlength, hnests⟩ :=
      sound.arguments strict (htakes.significant hs) (by omega) harguments
    refine ⟨_, htakes.append htakesRest, ?_, Atom.nest_le_of_find? hfind ?_⟩
    · rw [htakesRest.lastEnd, htakes.lastEnd]
      simpa using Nucleus.indexed htoken hfind hoptional hopened hrow hclosed harguments hlength
    · intro argument hargument
      obtain hargument | rfl : argument ∈ contents ∨ argument = content := by
        simpa using hargument
      · exact hnests argument hargument
      · exact hnest

/-! ### Scripts and limits -/

theorem scripted {which : Script} {mark : Span} {atom result : Atom} (strict : context.Strict)
    (hs : s.Significant) (hbound : s.rest.length < bound)
    (h : readers.scripted context which mark atom s = .ok result s') :
    ∃ lexemes content, s.Takes lexemes s' ∧ atom.kind.acceptsScripts = true ∧
      atom.script which = none ∧ Argument context.inIndex lexemes content ∧
      Formula.nest content < context.room ∧
      result = atom.withScript which content ⟨mark.start, Lexeme.endOf s.lastEnd lexemes⟩ := by
  unfold Readers.scripted at h
  cases hproblem : scriptProblem? atom which with
  | some cause =>
      rw [hproblem] at h
      exact absurd h (Context.report_bind_ne_ok strict.first _ _ _)
  | none =>
      rw [hproblem] at h
      dsimp only at h
      rw [bind_eq_ok] at h
      obtain ⟨content, middle, hread, h⟩ := h
      obtain ⟨rfl, rfl⟩ : _ = result ∧ middle = s' := pure_eq_ok.mp h
      obtain ⟨lexemes, htakes, hargument, hnest⟩ := sound.argument strict hs hbound hread
      obtain ⟨haccepts, hfree⟩ := scriptProblem?_eq_none.mp hproblem
      refine ⟨lexemes, content, htakes, haccepts, hfree, hargument, hnest, ?_⟩
      rw [htakes.lastEnd]
      rfl

theorem script {which : Script} {result : List Atom} (strict : context.Strict)
    (hs : s.Significant) (hbound : s.rest.length < bound) (hend : s.lastEnd = lexeme.span.stop)
    (hmark : lexeme.token.script? = some which)
    (h : readers.script context which lexeme.span atoms s = .ok result s') :
    ∃ lexemes, s.Takes lexemes s' ∧ Step context.inIndex atoms (lexeme :: lexemes) result ∧
      Formula.nest result ≤ max (Formula.nest atoms) context.room := by
  unfold Readers.script at h
  rw [Context.peek_bind_eq_ok strict.first] at h
  obtain ⟨-, h⟩ := h
  cases hfollowing : (context.upcoming s.rest).token.script? with
  | some following =>
      rw [hfollowing] at h
      exact absurd h (Context.report_bind_ne_ok strict.first _ _ _)
  | none =>
      rw [hfollowing] at h
      cases atoms with
      | nil =>
          dsimp only at h
          rw [bind_eq_ok] at h
          obtain ⟨atom, middle, hread, h⟩ := h
          obtain ⟨rfl, rfl⟩ := pure_eq_ok.mp h
          obtain ⟨lexemes, content, htakes, -, hfree, hargument, hnest, hatom⟩ :=
            sound.scripted strict hs hbound hread
          rw [hend] at hatom
          subst hatom
          refine ⟨lexemes, htakes, .scriptBase hmark hargument, ?_⟩
          rw [Formula.nest_cons, Formula.nest_nil, Atom.nest_withScript hfree,
            Atom.nest_symbol (by simp)]
          omega
      | cons atom atoms =>
          dsimp only at h
          rw [bind_eq_ok] at h
          obtain ⟨atom', middle, hread, h⟩ := h
          obtain ⟨rfl, rfl⟩ := pure_eq_ok.mp h
          obtain ⟨lexemes, content, htakes, haccepts, hfree, hargument, hnest, hatom⟩ :=
            sound.scripted strict hs hbound hread
          rw [hend] at hatom
          subst hatom
          refine ⟨lexemes, htakes, .script hmark haccepts hfree hargument, ?_⟩
          rw [Formula.nest_cons, Formula.nest_cons, Atom.nest_withScript hfree]
          omega

omit sound in
theorem setLimits {value : Bool} {place : Span} {result : List Atom} (strict : context.Strict)
    (h : Readers.setLimits context value place atoms s = .ok result s') :
    ∃ atom earlier usual, atoms = atom :: earlier ∧ atom.kind = .largeOperator usual ∧
      atom.hasScripts = false ∧ result = atom.withLimits value place :: earlier ∧ s' = s := by
  unfold Readers.setLimits at h
  split at h
  · obtain ⟨rfl, rfl⟩ := pure_eq_ok.mp h
    exact ⟨_, _, _, rfl, rfl, rfl, rfl, rfl⟩
  · exact absurd h (Context.report_bind_ne_ok strict.first _ _ _)

/-! ### Fenced groups -/

omit sound in
theorem delimiter {fence : Fence} {place : Span} {glyph : String} (strict : context.Strict)
    (h : Readers.delimiter context fence place s = .ok glyph s') :
    ∃ lexeme, s.Takes [lexeme] s' ∧ Delimiter.glyph? lexeme.token = some glyph := by
  unfold Readers.delimiter at h
  rw [Context.peek_bind_eq_ok strict.first] at h
  generalize hnext : context.upcoming s.rest = next at h
  obtain ⟨-, h⟩ := h
  split at h
  · exact absurd h (Context.report_bind_ne_ok strict.first _ _ _)
  · rename_i hother
    rw [bind_of_ok (State.advance_apply s next)] at h
    cases hglyph : Delimiter.glyph? next.token with
    | none =>
        rw [hglyph] at h
        exact absurd h (Context.report_bind_ne_ok strict.first _ _ _)
    | some found =>
        rw [hglyph] at h
        obtain ⟨rfl, rfl⟩ := pure_eq_ok.mp h
        exact ⟨next, State.takes_upcoming hnext.symm fun hend => hother (.inl hend), hglyph⟩

theorem fenced {atom : Atom} {name : String} (strict : context.Strict) (hs : s.Significant)
    (hbound : s.rest.length < bound) (htoken : lexeme.token = .command name)
    (hfind : Command.find? name = some .left)
    (h : readers.fenced context lexeme.span s = .ok atom s') :
    ∃ lexemes, s.Takes lexemes s' ∧ Nucleus context.inIndex (lexeme :: lexemes) atom ∧
      atom.nest ≤ context.room := by
  unfold Readers.fenced at h
  rw [bind_eq_ok] at h
  obtain ⟨leftGlyph, first, hdelimiter, h⟩ := h
  obtain ⟨left, hleft, hleftGlyph⟩ := delimiter strict hdelimiter
  have hlength := hleft.length_eq
  rw [bind_eq_ok] at h
  obtain ⟨content, second, hread, h⟩ := h
  obtain ⟨lexemes, htakes, hrow, -, hnest⟩ :=
    sound.inGroup strict (hleft.significant hs) (by omega) hread
  rw [Context.peek_bind_eq_ok strict.first] at h
  generalize hnext : context.upcoming second.rest = closed at h
  obtain ⟨-, h⟩ := h
  split at h
  · rename_i hclosed
    have hclose := State.takes_upcoming hnext.symm (by simp [hclosed])
    rw [bind_of_ok (State.advance_apply second closed), bind_eq_ok] at h
    obtain ⟨rightGlyph, last, hdelimiter, h⟩ := h
    obtain ⟨right, hright, hrightGlyph⟩ := delimiter strict hdelimiter
    obtain ⟨rfl, rfl⟩ : _ = atom ∧ last = s' := pure_eq_ok.mp h
    refine ⟨_, hleft.append (htakes.append (hclose.append hright)), ?_, Atom.nest_group_le hnest⟩
    rw [hright.lastEnd]
    exact .fenced htoken hfind hleftGlyph hrow hclosed hrightGlyph
  · exact absurd h (Context.report_bind_ne_ok strict.first _ _ _)

/-! ### Tables -/

theorem gridStep {environment : Environment} {opened : Span} {rows result : List (List Formula)}
    {cells : List Formula} (strict : context.Strict) (hs : s.Significant)
    (hbound : s.rest.length < bound)
    (h : readers.gridStep context environment opened rows cells s = .ok result s') :
    ∃ lexemes closed more others, s.Takes (lexemes ++ [closed]) s' ∧
      Grid environment lexemes (more :: others) ∧ closed.token = .environmentEnd environment ∧
      result = dropEmptyRow (rows.reverse ++ (cells.reverse ++ more) :: others) ∧
      ∀ row ∈ more :: others, ∀ cell ∈ row, Formula.nest cell < context.room := by
  unfold Readers.gridStep at h
  rw [bind_eq_ok] at h
  obtain ⟨cell, first, hread, h⟩ := h
  obtain ⟨front, htakes, hrow, -, hnest⟩ := sound.inGroup strict hs hbound hread
  have hlength := htakes.length_eq
  dsimp only at h
  rw [Context.peek_bind_eq_ok strict.first] at h
  generalize hnext : context.upcoming first.rest = mark at h
  obtain ⟨-, h⟩ := h
  cases htoken : mark.token with
  | columnMark =>
      have hmark := State.takes_upcoming hnext.symm (by simp [htoken])
      have hshorter := hmark.shorter
      have htakes := htakes.append hmark
      rw [htoken] at h
      dsimp only at h
      rw [bind_of_ok (State.advance_apply first mark)] at h
      split at h
      · exact absurd h (Context.report_bind_ne_ok strict.first _ _ _)
      · rename_i hcolumns
        obtain ⟨rest, closed, more, others, htakesRest, hgrid, hclosed, rfl, hnests⟩ :=
          sound.grid context strict (htakes.significant hs) (by omega) h
        refine ⟨front ++ mark :: rest, closed, cell :: more, others, ?_,
          .column (by simpa using hcolumns) hrow htoken hgrid, hclosed, by simp, ?_⟩
        · simpa using htakes.append htakesRest
        · simp only [List.forall_mem_cons] at hnests ⊢
          exact ⟨⟨hnest, hnests.1⟩, hnests.2⟩
  | environmentEnd found =>
      have hmark := State.takes_upcoming hnext.symm (by simp [htoken])
      rw [htoken] at h
      dsimp only at h
      rw [bind_of_ok (State.advance_apply first mark)] at h
      split at h
      · exact absurd h (Context.report_bind_ne_ok strict.first _ _ _)
      · rename_i hsame
        obtain ⟨rfl, rfl⟩ := pure_eq_ok.mp h
        rw [Decidable.not_not] at hsame
        refine ⟨front, mark, [cell], [], htakes.append hmark, .last hrow, hsame ▸ htoken, ?_, ?_⟩
        · rw [closeGrid_eq, List.reverse_cons]
        · simpa using hnest
  | command name =>
      rw [htoken] at h
      dsimp only at h
      split at h
      · rename_i hname
        have hmark := State.takes_upcoming hnext.symm (by simp [htoken])
        have hshorter := hmark.shorter
        have htakes := htakes.append hmark
        rw [bind_of_ok (State.advance_apply first mark)] at h
        obtain ⟨rest, closed, more, others, htakesRest, hgrid, hclosed, rfl, hnests⟩ :=
          sound.grid context strict (htakes.significant hs) (by omega) h
        refine ⟨front ++ mark :: rest, closed, [cell], more :: others, ?_,
          .row hrow (htoken.trans hname) hgrid, hclosed, by simp, ?_⟩
        · simpa using htakes.append htakesRest
        · exact List.forall_mem_cons.mpr ⟨by simpa using hnest, hnests⟩
      · exact absurd h (Context.report_bind_ne_ok strict.first _ _ _)
  | _ =>
      rw [htoken] at h
      dsimp only at h
      rw [if_neg (by simp)] at h
      exact absurd h (Context.report_bind_ne_ok strict.first _ _ _)

theorem table {environment : Environment} {atom : Atom} (strict : context.Strict)
    (hs : s.Significant) (hbound : s.rest.length < bound)
    (htoken : lexeme.token = .environmentBegin environment)
    (h : readers.table context environment lexeme.span s = .ok atom s') :
    ∃ lexemes, s.Takes lexemes s' ∧ Nucleus context.inIndex (lexeme :: lexemes) atom ∧
      atom.nest ≤ context.room := by
  unfold Readers.table at h
  rw [bind_eq_ok] at h
  obtain ⟨rows, middle, hread, h⟩ := h
  obtain ⟨rfl, rfl⟩ : _ = atom ∧ middle = s' := pure_eq_ok.mp h
  obtain ⟨lexemes, closed, more, others, htakes, hgrid, hclosed, rfl, hnests⟩ :=
    sound.gridStep strict hs hbound hread
  refine ⟨_, htakes, ?_, Atom.nest_table_le ?_ ?_⟩
  · rw [htakes.lastEnd]
    simpa using Nucleus.table htoken hgrid hclosed
  · obtain ⟨cell, cells, others, heq⟩ := hgrid.exists_cons
    have hnest := hnests (cell :: cells) (by simp [heq]) cell List.mem_cons_self
    omega
  · exact fun row hrow => hnests row (mem_of_mem_dropEmptyRow hrow)

/-! ### Rows -/

omit sound in
theorem nucleus {atom : Atom} (atoms : List Atom)
    (h : ∃ lexemes, s.Takes lexemes s' ∧ Nucleus context.inIndex (lexeme :: lexemes) atom ∧
      atom.nest ≤ context.room) :
    ∃ lexemes, s.Takes lexemes s' ∧
      Step context.inIndex atoms (lexeme :: lexemes) (atom :: atoms) ∧
      Formula.nest (atom :: atoms) ≤ max (Formula.nest atoms) context.room := by
  obtain ⟨lexemes, htakes, hnucleus, hnest⟩ := h
  refine ⟨lexemes, htakes, .nucleus hnucleus, ?_⟩
  rw [Formula.nest_cons]
  omega

omit sound in
theorem symbol {kind : AtomKind} {text : String} {span : Span} (hkind : kind ≠ .table)
    (hnucleus : Nucleus context.inIndex [lexeme] (.symbol kind text span)) :
    ∃ lexemes, s.Takes lexemes s ∧
      Step context.inIndex atoms (lexeme :: lexemes) (.symbol kind text span :: atoms) ∧
      Formula.nest (.symbol kind text span :: atoms) ≤ max (Formula.nest atoms) context.room :=
  nucleus atoms ⟨[], .refl s, hnucleus, by simp [Atom.nest_symbol hkind]⟩

theorem command {name : String} {result : List Atom} (strict : context.Strict)
    (hs : s.Significant) (hbound : s.rest.length < bound) (hend : s.lastEnd = lexeme.span.stop)
    (htoken : lexeme.token = .command name)
    (h : readers.command context name lexeme.span atoms s = .ok result s') :
    ∃ lexemes, s.Takes lexemes s' ∧ Step context.inIndex atoms (lexeme :: lexemes) result ∧
      Formula.nest result ≤ max (Formula.nest atoms) context.room := by
  cases hfind : Command.find? name with
  | none =>
      unfold Readers.command at h
      rw [hfind] at h
      exact absurd h (Context.report_bind_ne_ok strict.first _ _ _)
  | some command =>
      cases command with
      | atom template =>
          rw [command_atom hfind, bind_eq_ok] at h
          obtain ⟨atom, middle, hread, h⟩ := h
          obtain ⟨rfl, rfl⟩ := pure_eq_ok.mp h
          exact nucleus atoms (sound.structured strict hs hbound hend htoken hfind hread)
      | limits value =>
          rw [command_limits hfind] at h
          obtain ⟨atom, earlier, usual, rfl, hkind, hscripts, rfl, rfl⟩ := setLimits strict h
          refine ⟨[], .refl _, .limits hkind hscripts htoken hfind, ?_⟩
          rw [Formula.nest_cons, Formula.nest_cons, Atom.nest_withLimits hkind]
          exact Nat.le_max_left ..
      | left =>
          rw [command_left hfind, bind_eq_ok] at h
          obtain ⟨atom, middle, hread, h⟩ := h
          obtain ⟨rfl, rfl⟩ := pure_eq_ok.mp h
          exact nucleus atoms (sound.fenced strict hs hbound htoken hfind hread)
      | right =>
          unfold Readers.command at h
          rw [hfind] at h
          dsimp only at h
          rw [bind_eq_ok] at h
          obtain ⟨_, middle, hstray, _⟩ := h
          exact absurd hstray (Context.report_bind_ne_ok strict.first _ _ _)
      | newRow =>
          unfold Readers.command at h
          rw [hfind] at h
          exact absurd h (Context.report_bind_ne_ok strict.first _ _ _)

theorem lexemeStep {result : List Atom} (strict : context.Strict) (hs : s.Significant)
    (hbound : s.rest.length < bound) (hend : s.lastEnd = lexeme.span.stop)
    (htrivia : lexeme.token.isTrivia = false) (hcloses : context.closes lexeme.token = false)
    (h : readers.lexemeStep context lexeme atoms s = .ok result s') :
    ∃ lexemes, s.Takes lexemes s' ∧ Step context.inIndex atoms (lexeme :: lexemes) result ∧
      Formula.nest result ≤ max (Formula.nest atoms) context.room := by
  cases hmark : lexeme.token.script? with
  | some which =>
      rw [lexemeStep_mark hmark] at h
      exact sound.script strict hs hbound hend hmark h
  | none =>
      unfold Readers.lexemeStep at h
      cases htoken : lexeme.token with
      | command name =>
          rw [htoken] at h
          exact sound.command strict hs hbound hend htoken h
      | character c =>
          rw [htoken] at h
          dsimp only at h
          cases hkind : Literal.kind? c with
          | none =>
              rw [hkind] at h
              exact absurd h (Context.report_bind_ne_ok strict.first _ _ _)
          | some kind =>
              rw [hkind] at h
              obtain ⟨rfl, rfl⟩ := pure_eq_ok.mp h
              exact symbol (Literal.kind_ne_table hkind) (.character htoken hkind)
      | bracketOpen =>
          rw [htoken] at h
          obtain ⟨rfl, rfl⟩ := pure_eq_ok.mp h
          exact symbol (by simp) (.bracketOpen htoken)
      | bracketClose =>
          rw [htoken] at h hcloses
          obtain ⟨rfl, rfl⟩ := pure_eq_ok.mp h
          have hindex : context.inIndex = false := hcloses
          exact symbol (by simp) (hindex ▸ .bracketClose htoken)
      | braceOpen =>
          rw [htoken] at h
          dsimp only at h
          rw [bind_eq_ok] at h
          obtain ⟨content, middle, hread, h⟩ := h
          obtain ⟨rfl, rfl⟩ : _ = result ∧ middle = s' := pure_eq_ok.mp h
          obtain ⟨lexemes, closed, htakes, hrow, hclosed, hnest⟩ :=
            sound.braced strict hs hbound hread
          refine nucleus atoms ⟨_, htakes, ?_, Atom.nest_group_le hnest⟩
          rw [htakes.lastEnd]
          simpa using Nucleus.group htoken hrow hclosed
      | environmentBegin environment =>
          rw [htoken] at h
          dsimp only at h
          rw [bind_eq_ok] at h
          obtain ⟨atom, middle, hread, h⟩ := h
          obtain ⟨rfl, rfl⟩ := pure_eq_ok.mp h
          exact nucleus atoms (sound.table strict hs hbound htoken hread)
      | braceClose | environmentEnd | columnMark =>
          rw [htoken] at h
          exact absurd h (Context.report_bind_ne_ok strict.first _ _ _)
      | superscriptMark | subscriptMark =>
          rw [htoken] at hmark
          cases hmark
      | blank | comment =>
          rw [htoken] at htrivia
          cases htrivia
      | sourceEnd =>
          rw [htoken] at hcloses
          cases hcloses

theorem rowStep {formula : Formula} (strict : context.Strict) (hs : s.Significant)
    (hbound : s.rest.length < bound + 1)
    (h : readers.rowStep context atoms s = .ok formula s') :
    ∃ lexemes, s.Takes lexemes s' ∧ Steps context.inIndex atoms lexemes formula.reverse ∧
      context.Stops s'.rest ∧ Formula.nest formula ≤ max (Formula.nest atoms) context.room := by
  unfold Readers.rowStep at h
  rw [Context.peek_bind_eq_ok strict.first] at h
  generalize hnext : context.upcoming s.rest = next at h
  obtain ⟨hclear, h⟩ := h
  split at h
  · rename_i hcloses
    obtain ⟨rfl, rfl⟩ := pure_eq_ok.mp h
    refine ⟨[], .refl s, ?_, ⟨hclear, hnext.symm ▸ hcloses⟩, ?_⟩
    · rw [List.reverse_reverse]
      exact .nil
    · rw [Formula.nest_reverse]
      exact Nat.le_max_left ..
  · rename_i hcloses
    rw [Bool.not_eq_true] at hcloses
    have hfirst := State.takes_upcoming hnext.symm (Context.ne_sourceEnd_of_closes hcloses)
    have hshorter := hfirst.shorter
    rw [bind_of_ok (State.advance_apply s next), bind_eq_ok] at h
    obtain ⟨result, middle, hread, h⟩ := h
    obtain ⟨lexemes, htakes, hstep, hnest⟩ := sound.lexemeStep strict (hfirst.significant hs)
      (by omega) rfl (hfirst.not_trivia hs) hcloses hread
    have hlength := htakes.length_eq
    have htaken := hfirst.append htakes
    obtain ⟨rest, htakesRest, hsteps, hstops, hnestRest⟩ :=
      sound.row context strict (htaken.significant hs) (by omega) h
    exact ⟨_, htaken.append htakesRest, .cons hstep hsteps, hstops, by omega⟩

theorem next : readers.next.Sound (bound + 1) where
  row _ _ _ _ _ strict hs hbound := sound.rowStep strict hs hbound
  lexeme _ _ _ _ _ _ strict hs hbound := sound.lexemeStep strict hs (by omega)
  grid _ _ _ _ _ _ _ _ strict hs hbound := sound.gridStep strict hs (by omega)

end Sound

theorem sound_idle : Readers.idle.Sound 0 where
  row _ _ _ _ _ _ _ hbound := by omega
  lexeme _ _ _ _ _ _ _ _ hbound := by omega
  grid _ _ _ _ _ _ _ _ _ _ hbound := by omega

theorem sound_upTo (bound : Nat) : (Readers.upTo bound).Sound bound := by
  induction bound with
  | zero => exact sound_idle
  | succ bound ih => exact ih.next

end Readers

end TexMath
