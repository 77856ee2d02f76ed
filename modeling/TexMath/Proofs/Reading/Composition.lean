import TexMath.Proofs.Grammar.Progress

/-!
# What the rules are composed of

`Composition` says how a reading is put together from basic steps: what it looks at and takes, what
it reports, which questions it asks of the open groups and where it goes a level deeper.  There is
one for each rule, and from those of the recursive rules `Readers.Composed.next` makes those one
level higher.  What every step has, the rules have by induction on their compositions, and a
composition can be carried out in another way than as a reading.
-/

namespace TexMath

/-- What is known where a reading begins. -/
structure Stage where
  /-- How many lexemes have been taken for which no level has been entered. -/
  room : Nat
  /-- The lexeme that has been taken last, with nothing but faults passed since. -/
  taken : Option Lexeme := none
  /-- The next lexeme, which has been looked at and not been taken. -/
  faced : Option Lexeme := none

/-- The argument of a mark is missing at the place, because the mark of the other script has been
found there. -/
inductive Stage.Clashes : Stage → String → Span → Prop
  | intro {room : Nat} {mark next : Lexeme} {which following : Script} :
      mark.token.script? = some which → next.token.script? = some following →
      following ≠ which → Clashes ⟨room, some mark, some next⟩ which.mark next.span

def Context.ending (context : Context) (formula : Formula) : Reading Formula := do
  if formula.isEmpty && !context.options.allowEmpty then
    context.report ⟨.emptyInput, ⟨0, context.sourceEnd⟩⟩
  pure formula

inductive Composition : {α : Type} → Stage → (Context → Reading α) → Type 1
  | pure {α : Type} {stage : Stage} (a : α) : Composition stage fun _ => pure a
  | bind {α β : Type} {stage : Stage} {read : Context → Reading α}
      {next : α → Context → Reading β} :
      Composition stage read → (∀ a, Composition ⟨stage.room, none, none⟩ (next a)) →
      Composition stage fun context => read context >>= fun a => next a context
  | peek {α : Type} {stage : Stage} {next : Lexeme → Context → Reading α} :
      (∀ l, Composition { stage with faced := some l } (next l)) →
      Composition stage fun context => context.peek >>= fun l => next l context
  | advance {α : Type} {room : Nat} {taken : Option Lexeme} {l : Lexeme}
      {next : Unit → Context → Reading α} : l.token ≠ .sourceEnd →
      Composition ⟨room + 1, some l, none⟩ (next ()) →
      Composition ⟨room, taken, some l⟩ fun context =>
        Context.advance l >>= fun done => next done context
  | report {stage : Stage} (cause : Cause) (place : Span) :
      (∀ command, cause = .missingArgument command → stage.Clashes command place) →
      Composition stage fun context => context.report ⟨cause, place⟩
  | missing {stage : Stage} (command : String) (place : Span) :
      Composition stage fun context => Readers.missingArgument context command place
  | ending {stage : Stage} (formula : Formula) :
      Composition stage fun context => context.ending formula
  | lastEnd {stage : Stage} : Composition stage fun _ => lastEnd
  | ite {α : Type} {stage : Stage} {condition : Prop} [Decidable condition]
      {read other : Context → Reading α} : (condition → Composition stage read) →
      (¬condition → Composition stage other) →
      Composition stage fun context => if condition then read context else other context
  /-- A question that the open groups decide. -/
  | ask {α : Type} {stage : Stage} {question : Context → Bool} {read other : Context → Reading α} :
      (∀ c c', c.groups = c'.groups → question c = question c') →
      ((∃ context, question context = true) → Composition stage read) →
      ((∃ context, question context = false) → Composition stage other) →
      Composition stage fun context =>
        if question context = true then read context else other context
  | deeper {α : Type} {room : Nat} {taken : Option Lexeme} {place : Span}
      {read : Context → Reading α} : Composition ⟨room, taken, none⟩ read →
      Composition ⟨room + 1, taken, none⟩ fun context => context.deeper place read
  | inGroup {α : Type} {room : Nat} {taken : Option Lexeme} {closer : Closer} {place : Span}
      {read : Context → Reading α} : Composition ⟨room, taken, none⟩ read →
      Composition ⟨room + 1, taken, none⟩ fun context => context.inGroup closer place read
  | less {α : Type} {room less : Nat} {taken faced : Option Lexeme} {read : Context → Reading α} :
      less ≤ room → Composition ⟨less, none, none⟩ read → Composition ⟨room, taken, faced⟩ read

namespace Context

theorem ne_sourceEnd_of_not_closes {lexeme : Lexeme}
    (h : ∃ context : Context, context.closes lexeme.token = false) :
    lexeme.token ≠ .sourceEnd := by
  obtain ⟨_, hcloses⟩ := h
  exact ne_sourceEnd_of_closes hcloses

theorem ne_sourceEnd_of_startsArgument {lexeme : Lexeme}
    (h : ∃ context : Context, context.startsArgument lexeme.token = true) :
    lexeme.token ≠ .sourceEnd := by
  obtain ⟨_, hstarts⟩ := h
  exact ne_sourceEnd_of_closes (closes_of_startsArgument hstarts).1

end Context

namespace Readers

theorem scriptProblem?_ne {atom : Atom} {which : Script} {cause : Cause}
    (h : scriptProblem? atom which = some cause) (command : String) :
    cause ≠ .missingArgument command := by
  rintro rfl
  unfold scriptProblem? at h
  split at h
  · cases h
  · split at h <;> cases h

structure Composed (readers : Readers) : Type 1 where
  row (atoms : List Atom) : Composition ⟨0, none, none⟩ fun context => readers.row context atoms
  lexeme (lexeme : Lexeme) (atoms : List Atom) :
    Composition ⟨1, some lexeme, none⟩ fun context => readers.lexeme context lexeme atoms
  grid (environment : Environment) (opened : Span) (rows : List (List Formula))
    (cells : List Formula) :
    Composition ⟨1, none, none⟩ fun context => readers.grid context environment opened rows cells

namespace Composed

variable {readers : Readers} (composed : readers.Composed)

/-! ## Groups and arguments -/

def enclosed (closer : Closer) {close : Token} (hclose : close ≠ .sourceEnd) (cause : Cause)
    (hcause : ∀ command, cause ≠ .missingArgument command) (opened : Span) :
    Composition ⟨1, none, none⟩ fun context =>
      readers.enclosed context closer close cause opened :=
  .bind (.inGroup (composed.row [])) fun content =>
    .peek fun _ => .ite
      (fun htoken => .advance (htoken ▸ hclose) (.pure content))
      fun _ => .bind (.report cause opened fun command h => absurd h (hcause command))
        fun _ => .pure content

def braced (opened : Span) :
    Composition ⟨1, none, none⟩ fun context => readers.braced context opened :=
  composed.enclosed .brace (by simp) .unbalancedBraces (by nofun) opened

def bracketed (opened : Span) :
    Composition ⟨1, none, none⟩ fun context =>
      readers.enclosed context .bracket .bracketClose .unbalancedBrackets opened :=
  composed.enclosed .bracket (by simp) .unbalancedBrackets (by nofun) opened

def argument (command : String) :
    Composition ⟨1, none, none⟩ fun context => readers.argument context command :=
  .peek fun next => .ite
    (fun htoken => .advance (by simp [htoken])
      (.less (Nat.le_succ 1) (composed.braced next.span)))
    fun _ => .ask (Context.startsArgument_congr next.token)
      (fun hstarts => .advance (Context.ne_sourceEnd_of_startsArgument hstarts)
        (.deeper (.bind (composed.lexeme next []) fun atoms => .pure atoms.reverse)))
      fun _ => .missing command next.span

def arguments (command : String) : (count : Nat) →
    Composition ⟨1, none, none⟩ fun context => readers.arguments context command count
  | 0 => .pure []
  | count + 1 =>
      .bind (composed.argument command) fun first =>
        .bind (arguments command count) fun rest => .pure (first :: rest)

def index? : Composition ⟨1, none, none⟩ fun context => readers.index? context :=
  .peek fun next => .ite
    (fun htoken => .advance (by simp [htoken])
      (.less (Nat.le_succ 1)
        (.bind (composed.bracketed next.span) fun index => .pure (some index))))
    fun _ => .pure none

def structured (template : Template) (name : String) (span : Span) :
    Composition ⟨1, none, none⟩ fun context => readers.structured context template name span :=
  have behind (index : Option Formula) : Composition ⟨1, none, none⟩ fun context =>
      readers.arguments context ("\\" ++ name) template.arguments >>= fun arguments =>
        lastEnd >>= fun stop => Pure.pure ({
          kind := template.kind
          nucleus := template.nucleus
          arguments := arguments ++ index.toList
          span := ⟨span.start, stop⟩ } : Atom) :=
    .bind (composed.arguments _ _) fun _ => .bind .lastEnd fun _ => .pure _
  .ite (fun _ => .pure _) fun _ =>
    .ite (fun _ => .bind composed.index? behind) fun _ => .bind (.pure none) behind

/-! ## Scripts and limits -/

def scripted (which : Script) (mark : Span) (atom : Atom) :
    Composition ⟨1, none, none⟩ fun context => readers.scripted context which mark atom := by
  delta Readers.scripted
  cases hproblem : scriptProblem? atom which with
  | some cause =>
      exact .bind (.report cause mark fun _ h => absurd h (scriptProblem?_ne hproblem _)) fun _ =>
        .bind (composed.argument which.mark) fun _ => .pure atom
  | none =>
      exact .bind (composed.argument which.mark) fun content => .bind .lastEnd fun stop => .pure _

def script {which : Script} {mark : Lexeme} (hmark : mark.token.script? = some which)
    (atoms : List Atom) :
    Composition ⟨1, some mark, none⟩ fun context =>
      readers.script context which mark.span atoms := by
  refine .peek fun next => ?_
  cases hfollowing : next.token.script? with
  | some following =>
      refine .bind (.report _ next.span fun command hcause => ?_) fun _ => .pure atoms
      split at hcause
      · cases hcause
      · cases hcause
        exact .intro hmark hfollowing ‹_›
  | none =>
      cases atoms with
      | nil =>
          exact .less (Nat.le_refl 1)
            (.bind (composed.scripted which mark.span _) fun atom => .pure [atom])
      | cons atom earlier =>
          exact .less (Nat.le_refl 1)
            (.bind (composed.scripted which mark.span atom) fun atom => .pure (atom :: earlier))

omit composed in
def setLimits (value : Bool) (span : Span) (atoms : List Atom) :
    Composition ⟨1, none, none⟩ fun context => Readers.setLimits context value span atoms := by
  cases atoms with
  | nil => exact .bind (.report _ span (by nofun)) fun _ => .pure []
  | cons atom earlier =>
      obtain ⟨kind, nucleus, arguments, superscript, subscript, boundaries, rows, place⟩ := atom
      cases kind with
      | largeOperator usual =>
          cases superscript with
          | some script => exact .bind (.report _ span (by nofun)) fun _ => .pure _
          | none =>
              cases subscript with
              | some script => exact .bind (.report _ span (by nofun)) fun _ => .pure _
              | none => exact .pure _
      | _ => exact .bind (.report _ span (by nofun)) fun _ => .pure _

/-! ## Fenced groups and tables -/

omit composed in
def delimiter (fence : Fence) (place : Span) :
    Composition ⟨1, none, none⟩ fun context => Readers.delimiter context fence place := by
  refine .peek fun next => .ite (fun _ => ?_) fun hother => ?_
  · exact .bind (.report _ place (by nofun)) fun _ => .pure ""
  · refine .advance (fun hend => hother (.inl hend)) (.less (Nat.le_succ 1) ?_)
    cases Delimiter.glyph? next.token with
    | some glyph => exact .pure glyph
    | none => exact .bind (.report _ next.span (by nofun)) fun _ => .pure ""

def fenced (opened : Span) :
    Composition ⟨1, none, none⟩ fun context => readers.fenced context opened := by
  have closed (left right : String) (content : Formula) : Composition ⟨1, none, none⟩ fun _ =>
      lastEnd >>= fun stop =>
        Pure.pure (Atom.group content (some ⟨left, right⟩) ⟨opened.start, stop⟩) :=
    .bind .lastEnd fun stop => .pure _
  refine .bind (delimiter .left opened) fun left => .bind (.inGroup (composed.row []))
    fun content => .peek fun next => .ite (fun hright => ?_) fun _ => ?_
  · refine .advance (by simp [hright]) (.less (Nat.le_succ 1) ?_)
    exact .bind (delimiter .right next.span) fun right => closed left right content
  · exact .bind (.report _ opened (by nofun)) fun _ => closed left "" content

omit composed in
def strayRight (span : Span) :
    Composition ⟨1, none, none⟩ fun context => Readers.strayRight context span := by
  refine .bind (.report _ span (by nofun)) fun _ =>
    .peek fun next => .ite (fun hglyph => ?_) fun _ => .pure _
  change Composition _ fun _ => Context.advance next >>= fun done => Pure.pure done
  refine .advance ?_ (.pure _)
  intro hend
  rw [hend] at hglyph
  cases hglyph

def gridStep (environment : Environment) (opened : Span) (rows : List (List Formula))
    (cells : List Formula) :
    Composition ⟨1, none, none⟩ fun context =>
      readers.gridStep context environment opened rows cells := by
  refine .bind (.inGroup (composed.row [])) fun cell => .peek fun next => ?_
  cases htoken : next.token with
  | columnMark =>
      refine .advance (by simp [htoken]) (.less (Nat.le_succ 1) (.ite (fun _ => ?_) fun _ => ?_))
      · exact .bind (.report _ next.span (by nofun)) fun _ =>
          composed.grid environment opened rows (cell :: cells)
      · exact composed.grid environment opened rows (cell :: cells)
  | environmentEnd found =>
      refine .advance (by simp [htoken]) (.ite (fun _ => ?_) fun _ => ?_)
      · exact .bind (.report _ next.span (by nofun)) fun _ => .pure _
      · exact .pure _
  | _ =>
      refine .ite (fun hnewRow => ?_) fun _ => ?_
      · refine .advance (by simp [htoken.trans hnewRow]) (.less (Nat.le_succ 1) ?_)
        exact composed.grid environment opened _ []
      · exact .bind (.report _ opened (by nofun)) fun _ => .pure _

def table (environment : Environment) (opened : Span) :
    Composition ⟨1, none, none⟩ fun context => readers.table context environment opened :=
  .bind (composed.gridStep environment opened [] []) fun _ => .bind .lastEnd fun _ => .pure _

/-! ## Rows -/

def command (name : String) (span : Span) (atoms : List Atom) :
    Composition ⟨1, none, none⟩ fun context => readers.command context name span atoms := by
  delta Readers.command
  cases Command.find? name with
  | none => exact .bind (.report _ span (by nofun)) fun _ => .pure _
  | some command =>
      cases command with
      | atom template =>
          exact .bind (composed.structured template name span) fun atom => .pure (atom :: atoms)
      | limits value => exact setLimits value span atoms
      | left => exact .bind (composed.fenced span) fun atom => .pure (atom :: atoms)
      | right => exact .bind (strayRight span) fun _ => .pure atoms
      | newRow => exact .bind (.report _ span (by nofun)) fun _ => .pure atoms

def lexemeStep (lexeme : Lexeme) (atoms : List Atom) :
    Composition ⟨1, some lexeme, none⟩ fun context => readers.lexemeStep context lexeme atoms := by
  delta Readers.lexemeStep
  cases htoken : lexeme.token with
  | character c =>
      dsimp only
      cases Literal.kind? c with
      | some kind => exact .pure _
      | none => exact .bind (.report _ lexeme.span (by nofun)) fun _ => .pure _
  | braceOpen =>
      exact .less (Nat.le_refl 1)
        (.bind (composed.braced lexeme.span) fun content => .bind .lastEnd fun stop => .pure _)
  | superscriptMark => exact composed.script (by rw [htoken]; rfl) atoms
  | subscriptMark => exact composed.script (by rw [htoken]; rfl) atoms
  | command name => exact .less (Nat.le_refl 1) (composed.command name lexeme.span atoms)
  | environmentBegin environment =>
      exact .less (Nat.le_refl 1)
        (.bind (composed.table environment lexeme.span) fun atom => .pure (atom :: atoms))
  | braceClose | environmentEnd | columnMark =>
      exact .bind (.report _ lexeme.span (by nofun)) fun _ => .pure atoms
  | bracketOpen | bracketClose | blank | comment | sourceEnd => exact .pure _

def rowStep (atoms : List Atom) :
    Composition ⟨0, none, none⟩ fun context => readers.rowStep context atoms :=
  .peek fun next => .ask (Context.closes_congr next.token)
    (fun _ => .pure atoms.reverse)
    fun hcloses => .advance (Context.ne_sourceEnd_of_not_closes hcloses)
      (.bind (composed.lexemeStep next atoms) fun atoms =>
        .less (Nat.zero_le 1) (composed.row atoms))

def next : readers.next.Composed where
  row := composed.rowStep
  lexeme := composed.lexemeStep
  grid := composed.gridStep

def root : Composition ⟨0, none, none⟩ readers.root :=
  .bind (composed.row []) .ending

end Composed

def composed : (bound : Nat) → (upTo bound).Composed
  | 0 => {
      row := fun _ => .pure _
      lexeme := fun _ _ => .pure _
      grid := fun _ _ _ _ => .pure _ }
  | bound + 1 => (composed bound).next

end Readers

end TexMath
