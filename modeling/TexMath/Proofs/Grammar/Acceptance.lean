import TexMath.Proofs.Grammar.Progress
import TexMath.Proofs.Reading.Rules
import TexMath.Proofs.Symbol.Command

/-!
# The reading accepts what the grammar derives

Lexemes that the grammar derives are taken by the reading, which returns what they stand for, in
either mode and with any options that leave room for the nesting.  The proof goes by the bound on
the readers: `Readers.Accepts` holds of readers that accept everything with fewer items than the
bound, and one more level of the readers accepts one item more.
-/

namespace TexMath

open Grammar Reading

variable {context : Context} {inIndex : Bool} {s s' : State} {lexeme : Lexeme}
  {lexemes : List Lexeme}

/-! ## Tokens that begin something -/

namespace Grammar

theorem Nucleus.exists_cons {atom : Atom} (h : Nucleus inIndex lexemes atom) :
    ∃ lexeme rest, lexemes = lexeme :: rest := by
  cases h <;> exact ⟨_, _, rfl⟩

theorem Argument.exists_cons {content : Formula} (h : Argument inIndex lexemes content) :
    ∃ lexeme rest, lexemes = lexeme :: rest := by
  cases h <;> exact ⟨_, _, rfl⟩

theorem Step.exists_cons {atoms result : List Atom} (h : Step inIndex atoms lexemes result) :
    ∃ lexeme rest, lexemes = lexeme :: rest := by
  cases h with
  | nucleus hnucleus => exact hnucleus.exists_cons
  | limits | script | scriptBase => exact ⟨_, _, rfl⟩

end Grammar

theorem Grammar.Step.length_pos {atoms result : List Atom} (h : Step inIndex atoms lexemes result) :
    0 < lexemes.length := by
  obtain ⟨lexeme, rest, rfl⟩ := h.exists_cons
  exact Nat.succ_pos _

namespace Context

theorem closes_command {name : String} {command : Command}
    (hfind : Command.find? name = some command) (hright : command ≠ .right)
    (hnewRow : command ≠ .newRow) : context.closes (.command name) = false := by
  have notRight : name ≠ "right" := by
    rintro rfl
    rw [Command.find?_right, Option.some.injEq] at hfind
    exact hright hfind.symm
  have notNewRow : name ≠ "\\" := by
    rintro rfl
    rw [Command.find?_newRow, Option.some.injEq] at hfind
    exact hnewRow hfind.symm
  simp [closes, notRight, notNewRow]

theorem not_mem_directives {name : String} {command : Command}
    (hfind : Command.find? name = some command) (hlimits : ∀ value, command ≠ .limits value)
    (hright : command ≠ .right) (hnewRow : command ≠ .newRow) : name ∉ directives := by
  simp only [directives, List.mem_cons, List.not_mem_nil, or_false]
  rintro (rfl | rfl | rfl | rfl)
  · exact hright (by simpa [Command.find?_right] using hfind.symm)
  · exact hlimits true (by simpa [Command.find?_limits] using hfind.symm)
  · exact hlimits false (by simpa [Command.find?_nolimits] using hfind.symm)
  · exact hnewRow (by simpa [Command.find?_newRow] using hfind.symm)

theorem closes_mark {token : Token} {which : Script} (h : token.script? = some which) :
    context.closes token = false := by
  cases token <;> first | rfl | cases h

end Context

namespace Grammar

theorem Nucleus.not_closes {atom : Atom} (h : Nucleus inIndex (lexeme :: lexemes) atom)
    (hindex : context.inIndex = inIndex) : context.closes lexeme.token = false := by
  cases h with
  | character htoken _ => rw [htoken]; rfl
  | bracketOpen htoken => rw [htoken]; rfl
  | bracketClose htoken => rw [htoken]; exact hindex
  | group htoken _ _ => rw [htoken]; rfl
  | command htoken hfind _ _ _ | indexed htoken hfind _ _ _ _ _ _
  | fenced htoken hfind _ _ _ _ =>
      rw [htoken]
      exact Context.closes_command hfind (by simp) (by simp)
  | table htoken _ _ => rw [htoken]; rfl

theorem Step.not_closes {atoms result : List Atom}
    (h : Step inIndex atoms (lexeme :: lexemes) result) (hindex : context.inIndex = inIndex) :
    context.closes lexeme.token = false := by
  cases h with
  | nucleus hnucleus => exact hnucleus.not_closes hindex
  | limits _ _ htoken hfind =>
      rw [htoken]
      exact Context.closes_command hfind (by simp) (by simp)
  | script hmark _ _ _ => exact Context.closes_mark hmark
  | scriptBase hmark _ => exact Context.closes_mark hmark

theorem Nucleus.startsArgument {atom : Atom} (h : Nucleus inIndex (lexeme :: lexemes) atom)
    (hindex : context.inIndex = inIndex) : context.startsArgument lexeme.token = true := by
  unfold Context.startsArgument
  rw [h.not_closes hindex]
  cases h with
  | character htoken _ | bracketOpen htoken | bracketClose htoken | group htoken _ _
  | table htoken _ _ => rw [htoken]; rfl
  | command htoken hfind _ _ _ | indexed htoken hfind _ _ _ _ _ _
  | fenced htoken hfind _ _ _ _ =>
      simp [htoken, Context.not_mem_directives hfind (by simp) (by simp) (by simp)]

theorem Argument.script?_eq_none {content : Formula}
    (h : Argument inIndex (lexeme :: lexemes) content) : lexeme.token.script? = none := by
  cases h with
  | braced hopened _ _ => rw [hopened]; rfl
  | bare _ hnucleus =>
      cases hnucleus with
      | character htoken _ | bracketOpen htoken | bracketClose htoken | group htoken _ _
      | table htoken _ _ | command htoken _ _ _ _ | indexed htoken _ _ _ _ _ _ _
      | fenced htoken _ _ _ _ _ => rw [htoken]; rfl

end Grammar

/-! ## Nesting along the steps -/

namespace Grammar

theorem Step.nest_le {atoms result : List Atom} (h : Step inIndex atoms lexemes result) :
    Formula.nest atoms ≤ Formula.nest result := by
  cases h with
  | nucleus _ =>
      rw [Formula.nest_cons]
      exact Nat.le_max_right ..
  | limits hkind _ _ _ =>
      exact Nat.le_of_eq
        (by rw [Formula.nest_cons, Formula.nest_cons, Atom.nest_withLimits hkind])
  | script _ _ hfree _ =>
      rw [Formula.nest_cons, Formula.nest_cons, Atom.nest_withScript hfree]
      omega
  | scriptBase _ _ => simp

theorem Steps.nest_le {atoms result : List Atom} (h : Steps inIndex atoms lexemes result) :
    Formula.nest atoms ≤ Formula.nest result := by
  induction h with
  | nil => exact Nat.le_refl _
  | cons step _ ih => exact Nat.le_trans step.nest_le ih

end Grammar

/-! ## Readers that accept the grammar -/

namespace Readers

theorem rowStep_of_takes {readers : Readers} {atoms : List Atom}
    (htakes : s.Takes (lexeme :: lexemes) s') (hcloses : context.closes lexeme.token = false) :
    readers.rowStep context atoms s =
      (readers.lexemeStep context lexeme atoms >>= readers.row context) (s.advanced lexeme) := by
  unfold Readers.rowStep
  rw [bind_of_ok (htakes.peek context), if_neg (by simp [hcloses]),
    bind_of_ok (State.advance_apply s lexeme)]

/-- The readers accept what the grammar derives from fewer items than the bound. -/
structure Accepts (readers : Readers) (bound : Nat) : Prop where
  row : ∀ (context : Context) {atoms result : List Atom} {lexemes : List Lexeme} {s s' : State},
    s.rest.length < bound → Steps context.inIndex atoms lexemes result → s.Takes lexemes s' →
    context.Stops s'.rest → Formula.nest result ≤ context.room →
    readers.row context atoms s = .ok result.reverse s'
  lexeme : ∀ (context : Context) {lexeme : Lexeme} {atoms result : List Atom}
    {lexemes : List Lexeme} {s s' : State},
    s.rest.length + 1 < bound → s.lastEnd = lexeme.span.stop →
    Step context.inIndex atoms (lexeme :: lexemes) result → s.Takes lexemes s' →
    Formula.nest result ≤ context.room → readers.lexeme context lexeme atoms s = .ok result s'
  grid : ∀ (context : Context) (opened : Span) (rows : List (List Formula)) (cells : List Formula)
    {environment : Environment} {closed : Lexeme} {more : List Formula}
    {others : List (List Formula)} {lexemes : List Lexeme} {s s' : State},
    s.rest.length + 1 < bound → Grid environment lexemes (more :: others) →
    closed.token = .environmentEnd environment → s.Takes (lexemes ++ [closed]) s' →
    (∀ row ∈ more :: others, ∀ cell ∈ row, Formula.nest cell < context.room) →
    readers.grid context environment opened rows cells s =
      .ok (dropEmptyRow (rows.reverse ++ (cells.reverse ++ more) :: others)) s'

namespace Accepts

variable {readers : Readers} {bound : Nat} (accepts : readers.Accepts bound)
include accepts

/-! ### Groups and arguments -/

theorem inGroup (closer : Closer) {content : Formula} (place : Span)
    (hbound : s.rest.length < bound)
    (hrow : Row (closer == .bracket) lexemes content) (htakes : s.Takes lexemes s')
    (hstops : (context.inside closer).Stops s'.rest) (hroom : Formula.nest content < context.room) :
    context.inGroup closer place (fun inside => readers.row inside []) s = .ok content s' := by
  have hdepth : context.depth < context.options.maxDepth := by
    unfold Context.room at hroom
    omega
  rw [Context.inGroup_of_lt hdepth]
  have hread := accepts.row (context.inside closer) hbound hrow.steps htakes hstops
    (by rw [Formula.nest_reverse, Context.room_inside]; omega)
  rwa [List.reverse_reverse] at hread

variable (context) in
theorem enclosed (closer : Closer) {closed : Lexeme} {content : Formula} (cause : Cause)
    (opened : Span) (hbound : s.rest.length < bound)
    (hrow : Row (closer == .bracket) lexemes content) (htakes : s.Takes (lexemes ++ [closed]) s')
    (hcloses : (context.inside closer).closes closed.token = true)
    (hroom : Formula.nest content < context.room) :
    readers.enclosed context closer closed.token cause opened s = .ok content s' := by
  obtain ⟨middle, htakes, hclosed⟩ := htakes.split
  unfold Readers.enclosed
  have hstops : (context.inside closer).Stops middle.rest := by
    rw [hclosed.rest_eq_cons]
    exact Context.stops_of_lexeme hcloses _
  rw [bind_of_ok (accepts.inGroup closer opened hbound hrow htakes hstops hroom),
    bind_of_ok (hclosed.peek context), if_pos rfl, bind_of_ok (State.advance_apply middle closed),
    hclosed.eq_advanced]
  rfl

theorem argument {content : Formula} (command : String) (hbound : s.rest.length < bound)
    (hargument : Argument context.inIndex lexemes content) (htakes : s.Takes lexemes s')
    (hroom : Formula.nest content < context.room) :
    readers.argument context command s = .ok content s' := by
  unfold Readers.argument
  cases hargument with
  | @braced _ opened closed lexemes _ hopened hrow hclosed =>
      rw [bind_of_ok (htakes.peek context), if_pos hopened,
        bind_of_ok (State.advance_apply s opened)]
      have hlength : (s.advanced opened).rest.length < bound := by
        simp only [State.advanced, List.length_tail]
        omega
      have hread := accepts.enclosed context .brace .unbalancedBraces opened.span hlength hrow
        htakes.tail (by rw [hclosed]; simp [Context.closes, Context.inside]) hroom
      rwa [hclosed] at hread
  | @bare _ lexeme lexemes atom hbrace hnucleus =>
      have hdepth : context.depth < context.options.maxDepth := by
        unfold Context.room at hroom
        omega
      rw [bind_of_ok (htakes.peek context), if_neg hbrace, if_pos (hnucleus.startsArgument rfl),
        bind_of_ok (State.advance_apply s lexeme), Context.deeper_of_lt context hdepth]
      have hlength : (s.advanced lexeme).rest.length + 1 < bound := by
        simp only [State.advanced, htakes.rest_eq_cons, List.tail_cons] at hbound ⊢
        exact hbound
      have step : Step context.inIndex [] (lexeme :: lexemes) [atom] := .nucleus hnucleus
      have hread := accepts.lexeme { context with depth := context.depth + 1 } hlength rfl step
        htakes.tail (by
          simp only [Context.room] at hroom ⊢
          omega)
      rw [bind_of_ok hread]
      rfl

theorem arguments {contents : List Formula} (command : String) (hbound : s.rest.length < bound)
    (harguments : Arguments context.inIndex lexemes contents) (htakes : s.Takes lexemes s')
    (hroom : ∀ content ∈ contents, Formula.nest content < context.room) :
    readers.arguments context command contents.length s = .ok contents s' := by
  induction contents generalizing s lexemes with
  | nil =>
      cases harguments with
      | nil =>
          rw [htakes.eq_of_nil]
          rfl
  | cons content contents ih =>
      cases harguments with
      | cons hargument hrest =>
          obtain ⟨middle, htakes, htakesRest⟩ := htakes.split
          have hlength := htakes.length_eq
          change (readers.argument context command >>= fun first =>
            readers.arguments context command contents.length >>= fun rest =>
              pure (first :: rest)) s = _
          rw [bind_of_ok (accepts.argument command hbound hargument htakes
              (hroom content List.mem_cons_self)),
            bind_of_ok (ih (by omega) hrest htakesRest fun other hother =>
              hroom other (List.mem_cons_of_mem _ hother))]
          rfl

omit accepts in
theorem index?_eq_none (hclear : (splitFaults s.rest).1 = [])
    (hnext : (context.upcoming s.rest).token ≠ .bracketOpen) :
    readers.index? context s = .ok none s := by
  unfold Readers.index?
  rw [bind_of_ok (context.peek_of_nil hclear), if_neg hnext]
  rfl

theorem index?_eq_some {opened closed : Lexeme} {index : Formula} (hbound : s.rest.length < bound)
    (hopened : opened.token = .bracketOpen) (hrow : Row true lexemes index)
    (hclosed : closed.token = .bracketClose) (htakes : s.Takes (opened :: lexemes ++ [closed]) s')
    (hroom : Formula.nest index < context.room) :
    readers.index? context s = .ok (some index) s' := by
  unfold Readers.index?
  have hlength : (s.advanced opened).rest.length < bound := by
    simp only [State.advanced, List.length_tail]
    omega
  have hread := accepts.enclosed context .bracket .unbalancedBrackets opened.span hlength hrow
    htakes.tail (by rw [hclosed]; simp [Context.closes, Context.inside]) hroom
  rw [hclosed] at hread
  rw [bind_of_ok (htakes.peek context), if_pos hopened, bind_of_ok (State.advance_apply s opened),
    bind_of_ok hread]
  rfl

theorem structured {name : String} {template : Template} {span : Span} {contents : List Formula}
    (hbound : s.rest.length < bound) (hend : s.lastEnd = span.stop)
    (hfind : Command.find? name = some (.atom template))
    (hnext : template.optionalArgument = true →
      ∀ next ∈ lexemes.head?, next.token ≠ .bracketOpen)
    (harguments : Arguments context.inIndex lexemes contents)
    (hlength : contents.length = template.arguments) (htakes : s.Takes lexemes s')
    (hroom : ∀ content ∈ contents, Formula.nest content < context.room) :
    readers.structured context template name span s =
      .ok { kind := template.kind, nucleus := template.nucleus, arguments := contents
            span := ⟨span.start, Lexeme.endOf span.stop lexemes⟩ } s' := by
  by_cases hnone : template.arguments = 0 ∧ ¬ template.optionalArgument
  · rw [hnone.1, List.length_eq_zero_iff] at hlength
    subst hlength
    cases harguments
    rw [htakes.eq_of_nil]
    unfold Readers.structured
    rw [if_pos hnone]
    rfl
  · have hindex : (if template.optionalArgument then readers.index? context else pure none) s =
        .ok none s := by
      split
      · rename_i hoptional
        have hpositive : 0 < contents.length := by
          rw [hlength, Command.arguments_of_find? hfind,
            (Command.optionalArgument_of_find? hfind).mp hoptional]
          decide
        cases harguments with
        | nil => cases hpositive
        | cons hargument hrest =>
            obtain ⟨next, others, rfl⟩ := hargument.exists_cons
            have hrest := htakes.rest_eq_cons
            refine index?_eq_none (by rw [hrest]; rfl) ?_
            rw [hrest]
            exact hnext hoptional next rfl
      · rfl
    rw [structured_eq name span hnone, bind_of_ok hindex, ← hlength,
      bind_of_ok (accepts.arguments _ hbound harguments htakes hroom)]
    change EStateM.Result.ok _ s' = _
    rw [htakes.lastEnd, hend]
    simp

theorem structured_indexed {template : Template} {opened closed : Lexeme} {rest : List Lexeme}
    {index : Formula} {contents : List Formula} (name : String) (span : Span)
    (hbound : s.rest.length < bound) (hoptional : template.optionalArgument = true)
    (hopened : opened.token = .bracketOpen) (hrow : Row true lexemes index)
    (hclosed : closed.token = .bracketClose)
    (harguments : Arguments context.inIndex rest contents)
    (hlength : contents.length = template.arguments)
    (htakes : s.Takes (opened :: lexemes ++ closed :: rest) s')
    (hroom : ∀ content ∈ contents ++ [index], Formula.nest content < context.room) :
    readers.structured context template name span s =
      .ok { kind := template.kind, nucleus := template.nucleus, arguments := contents ++ [index]
            span := ⟨span.start, Lexeme.endOf closed.span.stop rest⟩ } s' := by
  have happend : opened :: lexemes ++ closed :: rest = (opened :: lexemes ++ [closed]) ++ rest := by
    simp
  rw [happend] at htakes
  obtain ⟨middle, htakes, hrest⟩ := htakes.split
  have htaken := htakes.length_eq
  have hindex := accepts.index?_eq_some hbound hopened hrow hclosed htakes
    (hroom index (by simp))
  rw [structured_eq name span (fun hnone => hnone.2 hoptional), if_pos hoptional,
    bind_of_ok hindex, ← hlength,
    bind_of_ok (accepts.arguments _ (by omega) harguments hrest fun content hcontent =>
      hroom content (List.mem_append_left _ hcontent))]
  change EStateM.Result.ok _ s' = _
  rw [hrest.lastEnd, htakes.lastEnd]
  simp

/-! ### Scripts -/

theorem scripted {which : Script} {mark : Span} {atom : Atom} {content : Formula}
    (hbound : s.rest.length < bound) (haccepts : atom.kind.acceptsScripts = true)
    (hfree : atom.script which = none) (hargument : Argument context.inIndex lexemes content)
    (htakes : s.Takes lexemes s') (hroom : Formula.nest content < context.room) :
    readers.scripted context which mark atom s =
      .ok (atom.withScript which content ⟨mark.start, Lexeme.endOf s.lastEnd lexemes⟩) s' := by
  have hproblem := scriptProblem?_eq_none.mpr ⟨haccepts, hfree⟩
  unfold Readers.scripted
  rw [hproblem]
  change (readers.argument context which.mark >>= fun content => lastEnd >>= fun stop => _) s = _
  rw [bind_of_ok (accepts.argument which.mark hbound hargument htakes hroom)]
  change EStateM.Result.ok _ s' = _
  rw [htakes.lastEnd]
  rfl

omit accepts in
theorem script_eq {which : Script} {mark : Span} {atoms : List Atom} {content : Formula}
    (hargument : Argument inIndex lexemes content) (htakes : s.Takes lexemes s') :
    readers.script context which mark atoms s =
      (match atoms with
      | [] => do return [← readers.scripted context which mark (.scriptBase mark.start)]
      | atom :: earlier => do return (← readers.scripted context which mark atom) :: earlier :
        Reading (List Atom)) s := by
  obtain ⟨next, rest, rfl⟩ := hargument.exists_cons
  unfold Readers.script
  rw [bind_of_ok (htakes.peek context), hargument.script?_eq_none]
  rfl

theorem script {which : Script} {mark : Span} {atom : Atom} {content : Formula}
    (hbound : s.rest.length < bound) (haccepts : atom.kind.acceptsScripts = true)
    (hfree : atom.script which = none) (hargument : Argument context.inIndex lexemes content)
    (htakes : s.Takes lexemes s') (hroom : Formula.nest content < context.room)
    (atoms : List Atom) :
    readers.script context which mark (atom :: atoms) s =
      .ok (atom.withScript which content ⟨mark.start, Lexeme.endOf s.lastEnd lexemes⟩ :: atoms)
        s' := by
  rw [script_eq hargument htakes]
  change (readers.scripted context which mark atom >>= fun atom => pure (atom :: atoms)) s = _
  rw [bind_of_ok (accepts.scripted hbound haccepts hfree hargument htakes hroom)]
  rfl

theorem script_nil {which : Script} {mark : Span} {content : Formula}
    (hbound : s.rest.length < bound) (hargument : Argument context.inIndex lexemes content)
    (htakes : s.Takes lexemes s') (hroom : Formula.nest content < context.room) :
    readers.script context which mark [] s =
      .ok [(Atom.scriptBase mark.start).withScript which content
        ⟨mark.start, Lexeme.endOf s.lastEnd lexemes⟩] s' := by
  rw [script_eq hargument htakes]
  change (readers.scripted context which mark (.scriptBase mark.start) >>= fun atom =>
    pure [atom]) s = _
  rw [bind_of_ok (accepts.scripted hbound rfl (Atom.script_scriptBase _ _) hargument htakes hroom)]
  rfl

/-! ### Fenced groups -/

omit accepts in
theorem delimiter {glyph : String} (fence : Fence) (place : Span)
    (hglyph : Delimiter.glyph? lexeme.token = some glyph) (htakes : s.Takes [lexeme] s') :
    Readers.delimiter context fence place s = .ok glyph s' := by
  have hnot : ¬(lexeme.token = .sourceEnd ∨ lexeme.token = .braceClose) := by
    rintro (h | h) <;> rw [h] at hglyph <;> cases hglyph
  unfold Readers.delimiter
  rw [bind_of_ok (htakes.peek context), if_neg hnot, bind_of_ok (State.advance_apply s lexeme),
    hglyph, htakes.eq_advanced]
  rfl

variable (context) in
theorem fenced {left closed right : Lexeme} {leftGlyph rightGlyph : String} {content : Formula}
    (opened : Span) (hbound : s.rest.length < bound)
    (hleft : Delimiter.glyph? left.token = some leftGlyph) (hrow : Row false lexemes content)
    (hclosed : closed.token = .command "right")
    (hright : Delimiter.glyph? right.token = some rightGlyph)
    (htakes : s.Takes (left :: lexemes ++ [closed, right]) s')
    (hroom : Formula.nest content < context.room) :
    readers.fenced context opened s =
      .ok (.group content (some ⟨leftGlyph, rightGlyph⟩) ⟨opened.start, right.span.stop⟩) s' := by
  have happend : left :: lexemes ++ [closed, right] =
      [left] ++ (lexemes ++ ([closed] ++ [right])) := by
    simp
  rw [happend] at htakes
  obtain ⟨first, hdelimiter, htakes⟩ := htakes.split
  obtain ⟨second, hcontent, htakes⟩ := htakes.split
  obtain ⟨third, hclose, hlast⟩ := htakes.split
  have hlength := hdelimiter.length_eq
  have hstops : (context.inside .right).Stops second.rest := by
    rw [hclose.rest_eq_cons]
    exact Context.stops_of_lexeme (by rw [hclosed]; simp [Context.closes, Context.inside]) _
  unfold Readers.fenced
  rw [bind_of_ok (delimiter .left opened hleft hdelimiter),
    bind_of_ok (accepts.inGroup .right opened (by omega) hrow hcontent hstops hroom),
    bind_of_ok (hclose.peek context), if_pos hclosed,
    bind_of_ok (State.advance_apply second closed), ← hclose.eq_advanced,
    bind_of_ok (delimiter .right closed.span hright hlast)]
  change EStateM.Result.ok _ s' = _
  rw [hlast.lastEnd]
  rfl

/-! ### Tables -/

theorem cell {mark : Lexeme} {rest : List Lexeme} {cell : Formula} (opened : Span)
    (hbound : s.rest.length < bound) (hrow : Row false lexemes cell)
    (hcloses : (context.inside .cell).closes mark.token = true)
    (htakes : s.Takes (lexemes ++ mark :: rest) s') (hroom : Formula.nest cell < context.room) :
    ∃ middle : State, middle.Takes (mark :: rest) s' ∧ middle.rest.length ≤ s.rest.length ∧
      context.inGroup .cell opened (fun inside => readers.row inside []) s = .ok cell middle := by
  obtain ⟨middle, hcell, hrest⟩ := htakes.split
  have hlength := hcell.length_eq
  have hstops : (context.inside .cell).Stops middle.rest := by
    rw [hrest.rest_eq_cons]
    exact Context.stops_of_lexeme hcloses _
  exact ⟨middle, hrest, by omega, accepts.inGroup .cell opened hbound hrow hcell hstops hroom⟩

theorem gridStep {environment : Environment} {closed : Lexeme} {more : List Formula}
    {others : List (List Formula)} (opened : Span) (rows : List (List Formula))
    (cells : List Formula) (hbound : s.rest.length < bound)
    (hgrid : Grid environment lexemes (more :: others))
    (hclosed : closed.token = .environmentEnd environment)
    (htakes : s.Takes (lexemes ++ [closed]) s')
    (hroom : ∀ row ∈ more :: others, ∀ cell ∈ row, Formula.nest cell < context.room) :
    readers.gridStep context environment opened rows cells s =
      .ok (dropEmptyRow (rows.reverse ++ (cells.reverse ++ more) :: others)) s' := by
  unfold Readers.gridStep
  cases hgrid with
  | @last _ _ cell hrow =>
      have hcloses : (context.inside .cell).closes closed.token = true := by
        rw [hclosed]; simp [Context.closes, Context.inside]
      obtain ⟨middle, hmark, -, hcell⟩ := accepts.cell opened hbound hrow hcloses htakes
        (hroom [cell] (by simp) cell (by simp))
      rw [bind_of_ok hcell, bind_of_ok (hmark.peek context), hclosed]
      dsimp only
      rw [bind_of_ok (State.advance_apply middle closed), ← hmark.eq_advanced,
        if_neg (not_not_intro rfl)]
      change EStateM.Result.ok (closeGrid rows (cell :: cells)) s' = _
      rw [closeGrid_eq, List.reverse_cons]
  | @column _ _ rest mark cell more _ hcolumns hrow hmark hrest =>
      rw [List.append_assoc, List.cons_append] at htakes
      have hcloses : (context.inside .cell).closes mark.token = true := by
        rw [hmark]; simp [Context.closes, Context.inside]
      obtain ⟨middle, hmiddle, hlength, hcell⟩ := accepts.cell opened hbound hrow hcloses htakes
        (hroom (cell :: more) (by simp) cell (by simp))
      have hshorter := hmiddle.shorter
      rw [bind_of_ok hcell, bind_of_ok (hmiddle.peek context), hmark]
      dsimp only
      rw [bind_of_ok (State.advance_apply middle mark)]
      have hroom : ∀ row ∈ more :: others, ∀ cell ∈ row, Formula.nest cell < context.room := by
        simp only [List.forall_mem_cons] at hroom ⊢
        exact ⟨hroom.1.2, hroom.2⟩
      have hread := accepts.grid context opened rows (cell :: cells) (by omega) hrest hclosed
        hmiddle.tail hroom
      rw [hcolumns, if_neg (by decide), hread, List.reverse_cons, List.append_assoc]
      rfl
  | @row _ _ rest mark cell more others hrow hmark hrest =>
      rw [List.append_assoc, List.cons_append] at htakes
      have hcloses : (context.inside .cell).closes mark.token = true := by
        rw [hmark]; simp [Context.closes, Context.inside]
      obtain ⟨middle, hmiddle, hlength, hcell⟩ := accepts.cell opened hbound hrow hcloses htakes
        (hroom [cell] (by simp) cell (by simp))
      have hshorter := hmiddle.shorter
      rw [bind_of_ok hcell, bind_of_ok (hmiddle.peek context), hmark]
      dsimp only
      rw [if_pos rfl, bind_of_ok (State.advance_apply middle mark)]
      have hread := accepts.grid context opened ((cell :: cells).reverse :: rows) [] (by omega)
        hrest hclosed hmiddle.tail fun row hrow => hroom row (List.mem_cons_of_mem _ hrow)
      rw [hread]
      simp

variable (context) in
theorem table {environment : Environment} {closed : Lexeme} {rows : List (List Formula)}
    (opened : Span) (hbound : s.rest.length < bound) (hgrid : Grid environment lexemes rows)
    (hclosed : closed.token = .environmentEnd environment)
    (htakes : s.Takes (lexemes ++ [closed]) s') (hroom : 0 < context.room)
    (hcells : ∀ row ∈ dropEmptyRow rows, ∀ cell ∈ row, Formula.nest cell < context.room) :
    readers.table context environment opened s =
      .ok { kind := .table, nucleus := environment.name, rows := dropEmptyRow rows
            span := ⟨opened.start, closed.span.stop⟩ } s' := by
  have hall : ∀ row ∈ rows, ∀ cell ∈ row, Formula.nest cell < context.room := by
    intro row hrow
    rcases mem_dropEmptyRow_or hrow with hrow | rfl
    · exact hcells row hrow
    · simpa using hroom
  obtain ⟨cell, cells, others, rfl⟩ := hgrid.exists_cons
  unfold Readers.table
  rw [bind_of_ok (accepts.gridStep opened [] [] hbound hgrid hclosed htakes hall)]
  change EStateM.Result.ok _ s' = _
  rw [htakes.lastEnd]
  simp

/-! ### Rows -/

theorem nucleus {atom : Atom} (atoms : List Atom) (hbound : s.rest.length < bound)
    (hend : s.lastEnd = lexeme.span.stop)
    (hnucleus : Nucleus context.inIndex (lexeme :: lexemes) atom) (htakes : s.Takes lexemes s')
    (hroom : atom.nest ≤ context.room) :
    readers.lexemeStep context lexeme atoms s = .ok (atom :: atoms) s' := by
  have hslots := (Atom.nest_le_iff.mp hroom).2
  generalize hindex : context.inIndex = inIndex at hnucleus
  cases hnucleus with
  | character htoken hkind =>
      unfold Readers.lexemeStep
      rw [htoken, htakes.eq_of_nil]
      dsimp only
      rw [hkind]
      rfl
  | bracketOpen htoken =>
      unfold Readers.lexemeStep
      rw [htoken, htakes.eq_of_nil]
      rfl
  | bracketClose htoken =>
      unfold Readers.lexemeStep
      rw [htoken, htakes.eq_of_nil]
      rfl
  | @group _ _ closed _ content htoken hrow hclosed =>
      have hread := accepts.enclosed context .brace .unbalancedBraces lexeme.span
        hbound hrow htakes (by rw [hclosed]; simp [Context.closes, Context.inside])
        (hslots content (by simp [Atom.group, Atom.slots]))
      rw [hclosed] at hread
      unfold Readers.lexemeStep
      rw [htoken]
      change (readers.enclosed context .brace .braceClose .unbalancedBraces lexeme.span >>=
        fun content => lastEnd >>= fun stop =>
          pure (.group content none ⟨lexeme.span.start, stop⟩ :: atoms)) s = _
      rw [bind_of_ok hread]
      change EStateM.Result.ok _ s' = _
      rw [htakes.lastEnd]
      simp
  | @command _ _ name template _ arguments htoken hfind hnext harguments hlength =>
      rw [← hindex] at harguments
      have hread := accepts.structured hbound hend hfind hnext harguments hlength htakes
        (fun content hcontent => hslots content (by simp [Atom.slots, hcontent]))
      rw [lexemeStep_command htoken, command_atom hfind, bind_of_ok hread]
      rfl
  | @indexed _ _ opened closed name template _ rest index arguments htoken hfind hoptional hopened
      hrow hclosed harguments hlength =>
      rw [← hindex] at harguments
      have hread := accepts.structured_indexed name lexeme.span hbound hoptional hopened hrow
        hclosed harguments hlength htakes (fun content hcontent => hslots content (by
          simp only [Atom.slots, List.mem_append]
          exact .inl (.inl (.inl (List.mem_append.mp hcontent)))))
      rw [lexemeStep_command htoken, command_atom hfind, bind_of_ok hread]
      rfl
  | @fenced _ _ left closed right name _ _ _ content htoken hfind hleft hrow hclosed hright =>
      have hread := accepts.fenced context lexeme.span hbound hleft hrow hclosed hright
        htakes (hslots content (by simp [Atom.group, Atom.slots]))
      rw [lexemeStep_command htoken, command_left hfind, bind_of_ok hread]
      rfl
  | @table _ _ closed environment _ rows htoken hgrid hclosed =>
      have hread := accepts.table context lexeme.span hbound hgrid hclosed
        htakes ((Atom.nest_le_iff.mp hroom).1 rfl)
        (fun row hrow cell hcell => hslots cell (by
          simp only [Atom.slots, List.mem_append, List.mem_flatten]
          exact .inr ⟨row, hrow, hcell⟩))
      unfold Readers.lexemeStep
      rw [htoken]
      change (readers.table context environment lexeme.span >>= fun atom => _) s = _
      rw [bind_of_ok hread]
      rfl

theorem lexemeStep {atoms result : List Atom} (hbound : s.rest.length < bound)
    (hend : s.lastEnd = lexeme.span.stop)
    (hstep : Step context.inIndex atoms (lexeme :: lexemes) result) (htakes : s.Takes lexemes s')
    (hroom : Formula.nest result ≤ context.room) :
    readers.lexemeStep context lexeme atoms s = .ok result s' := by
  cases hstep with
  | nucleus hnucleus =>
      rw [Formula.nest_cons] at hroom
      exact accepts.nucleus atoms hbound hend hnucleus htakes (by omega)
  | limits hkind hscripts htoken hfind =>
      rw [lexemeStep_command htoken, command_limits hfind, setLimits_of_kind hkind hscripts,
        htakes.eq_of_nil]
  | script hmark haccepts hfree hargument =>
      rw [Formula.nest_cons, Atom.nest_withScript hfree] at hroom
      rw [lexemeStep_mark hmark,
        accepts.script hbound haccepts hfree hargument htakes (by omega), hend]
  | scriptBase hmark hargument =>
      rw [Formula.nest_cons, Atom.nest_withScript (Atom.script_scriptBase _ _)] at hroom
      rw [lexemeStep_mark hmark, accepts.script_nil hbound hargument htakes (by omega), hend]

theorem rowStep_of_step {atoms middle : List Atom} {between : State}
    (hbound : s.rest.length < bound + 1) (hstep : Step context.inIndex atoms lexemes middle)
    (htakes : s.Takes lexemes between) (hroom : Formula.nest middle ≤ context.room) :
    readers.rowStep context atoms s = readers.row context middle between := by
  obtain ⟨first, lexemes, rfl⟩ := hstep.exists_cons
  have hshorter := htakes.shorter
  rw [rowStep_of_takes htakes (hstep.not_closes rfl),
    bind_of_ok (accepts.lexemeStep (by omega) rfl hstep htakes.tail hroom)]

theorem rowStep {atoms result : List Atom} (hbound : s.rest.length < bound + 1)
    (hsteps : Steps context.inIndex atoms lexemes result) (htakes : s.Takes lexemes s')
    (hstops : context.Stops s'.rest) (hroom : Formula.nest result ≤ context.room) :
    readers.rowStep context atoms s = .ok result.reverse s' := by
  cases hsteps with
  | nil =>
      unfold Readers.rowStep
      rw [htakes.eq_of_nil] at hstops ⊢
      rw [bind_of_ok (context.peek_of_nil hstops.1), if_pos hstops.2]
      rfl
  | @cons _ middle _ _ rest hstep hsteps =>
      obtain ⟨between, htakesStep, htakesRest⟩ := htakes.split
      have hshorter := hstep.length_pos
      have hlength := htakesStep.length_eq
      rw [accepts.rowStep_of_step hbound hstep htakesStep (Nat.le_trans hsteps.nest_le hroom)]
      exact accepts.row context (by omega) hsteps htakesRest hstops hroom

theorem next : readers.next.Accepts (bound + 1) where
  row context := accepts.rowStep
  lexeme context := fun hbound => accepts.lexemeStep (by omega)
  grid context opened rows cells := fun hbound => accepts.gridStep opened rows cells (by omega)

end Accepts

theorem accepts_idle : Readers.idle.Accepts 0 where
  row _ _ _ _ _ _ hbound := by omega
  lexeme _ _ _ _ _ _ _ hbound := by omega
  grid _ _ _ _ _ _ _ _ _ _ _ hbound := by omega

theorem accepts_upTo (bound : Nat) : (Readers.upTo bound).Accepts bound := by
  induction bound with
  | zero => exact accepts_idle
  | succ bound ih => exact ih.next

theorem row_of_steps {atoms result : List Atom}
    (hsteps : Steps context.inIndex atoms lexemes result)
    (hroom : Formula.nest result ≤ context.room) :
    ∀ {bound : Nat} {s : State}, s.Takes lexemes s' → s.rest.length < bound →
      ∃ left, s'.rest.length < left ∧
        (upTo bound).row context atoms s = (upTo left).row context result s' := by
  induction hsteps with
  | nil =>
      intro bound s htakes hbound
      obtain rfl := htakes.eq_of_nil
      exact ⟨bound, hbound, rfl⟩
  | cons hstep hsteps ih =>
      intro bound s htakes hbound
      obtain ⟨between, htakesStep, htakesRest⟩ := htakes.split
      have hshorter := hstep.length_pos
      have hlength := htakesStep.length_eq
      obtain ⟨lower, rfl⟩ : ∃ lower, bound = lower + 1 := ⟨bound - 1, by omega⟩
      have hrow : (upTo (lower + 1)).row context _ s = (upTo lower).row context _ between :=
        (accepts_upTo lower).rowStep_of_step hbound hstep htakesStep
          (Nat.le_trans hsteps.nest_le hroom)
      rw [hrow]
      exact ih hroom htakesRest (by omega)

end Readers

end TexMath
