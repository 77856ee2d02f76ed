import TexMath.Atom.Basic
import TexMath.Symbol.Command
import TexMath.Symbol.Delimiter
import TexMath.Symbol.Literal
import TexMath.Token.Basic

/-!
# The grammar of formulas

Which lexemes form which formula.  Each nonterminal relates lexemes to what they stand for, with the
spans that the lexemes cover.  The flag `inIndex` of a rule says whether the innermost open group is
the index of a root: a closing square bracket ends that group and is a symbol elsewhere.
-/

namespace TexMath

/-- The end of the last of the lexemes, or `offset` if there is none. -/
def Lexeme.endOf (offset : Nat) (lexemes : List Lexeme) : Nat :=
  lexemes.foldl (fun _ lexeme => lexeme.span.stop) offset

namespace Lexeme

@[simp] theorem endOf_nil (offset : Nat) : endOf offset [] = offset := rfl

@[simp] theorem endOf_cons (offset : Nat) (lexeme : Lexeme) (lexemes : List Lexeme) :
    endOf offset (lexeme :: lexemes) = endOf lexeme.span.stop lexemes := rfl

@[simp] theorem endOf_append (offset : Nat) (front back : List Lexeme) :
    endOf offset (front ++ back) = endOf (endOf offset front) back := by
  simp [endOf]

end Lexeme

namespace Atom

def withScript (atom : Atom) (which : Script) (content : Formula) (place : Span) : Atom :=
  { atom.setScript which (some content) with span := atom.span.cover place }

theorem setScript_none {atom : Atom} {which : Script} (h : atom.script which = none) :
    atom.setScript which none = atom := by
  obtain ⟨kind, nucleus, arguments, superscript, subscript, boundaries, rows, span⟩ := atom
  cases which <;> simp only [script] at h <;> subst h <;> rfl

section withScript

variable (atom : Atom) (which : Script) (content : Formula) (place : Span)

@[simp] theorem kind_withScript : (atom.withScript which content place).kind = atom.kind := by
  cases which <;> rfl

@[simp] theorem nucleus_withScript :
    (atom.withScript which content place).nucleus = atom.nucleus := by
  cases which <;> rfl

@[simp] theorem arguments_withScript :
    (atom.withScript which content place).arguments = atom.arguments := by
  cases which <;> rfl

@[simp] theorem boundaries_withScript :
    (atom.withScript which content place).boundaries = atom.boundaries := by
  cases which <;> rfl

@[simp] theorem rows_withScript : (atom.withScript which content place).rows = atom.rows := by
  cases which <;> rfl

@[simp] theorem hasScripts_withScript :
    (atom.withScript which content place).hasScripts = true := by
  cases which <;> simp [withScript, setScript, hasScripts]

theorem eq_or_mem_slots_of_withScript {slot : Formula}
    (h : slot ∈ (atom.withScript which content place).slots) :
    slot = content ∨ slot ∈ atom.slots := by
  cases which <;> simp [withScript, setScript, slots] at h ⊢ <;> grind

end withScript

def withLimits (atom : Atom) (value : Bool) (place : Span) : Atom :=
  { atom with kind := .largeOperator value, span := atom.span.cover place }

def scriptBase (offset : Nat) : Atom := .symbol .ordinary "" (.point offset)

theorem script_scriptBase (offset : Nat) (which : Script) :
    (scriptBase offset).script which = none := by
  cases which <;> rfl

end Atom

namespace Grammar

def dropEmptyRow (rows : List (List Formula)) : List (List Formula) :=
  match rows.getLast? with
  | some [[]] => rows.dropLast
  | _ => rows

theorem dropEmptyRow_concat (rows : List (List Formula)) :
    dropEmptyRow (rows ++ [[[]]]) = rows := by
  simp [dropEmptyRow]

theorem dropEmptyRow_of_ne (rows : List (List Formula)) {row : List Formula} (h : row ≠ [[]]) :
    dropEmptyRow (rows ++ [row]) = rows ++ [row] := by
  unfold dropEmptyRow
  rw [List.getLast?_concat]
  split
  · rename_i hlast
    exact absurd (Option.some.inj hlast) h
  · rfl

theorem mem_of_mem_dropEmptyRow {rows : List (List Formula)} {row : List Formula}
    (h : row ∈ dropEmptyRow rows) : row ∈ rows := by
  unfold dropEmptyRow at h
  split at h
  · exact (List.dropLast_sublist rows).mem h
  · exact h

theorem mem_dropEmptyRow_or {rows : List (List Formula)} {row : List Formula} (h : row ∈ rows) :
    row ∈ dropEmptyRow rows ∨ row = [[]] := by
  rcases List.eq_nil_or_concat rows with rfl | ⟨front, last, rfl⟩
  · cases h
  by_cases hlast : last = [[]]
  · subst hlast
    rw [List.concat_eq_append] at h ⊢
    rw [dropEmptyRow_concat]
    simpa using h
  · rw [List.concat_eq_append] at h ⊢
    rw [dropEmptyRow_of_ne _ hlast]
    exact .inl h

inductive Limits : Atom → List Lexeme → Atom → Prop
  | nil (atom : Atom) : Limits atom [] atom
  | cons {atom operator : Atom} {usual value : Bool} {name : String} {lexeme : Lexeme}
      {lexemes : List Lexeme} :
      atom.kind = .largeOperator usual → atom.hasScripts = false →
      lexeme.token = .command name → Command.find? name = some (.limits value) →
      Limits (atom.withLimits value lexeme.span) lexemes operator →
      Limits atom (lexeme :: lexemes) operator

mutual

inductive Row : Bool → List Lexeme → Formula → Prop
  | plain {inIndex : Bool} {lexemes : List Lexeme} {formula : Formula} :
      Items inIndex lexemes formula → Row inIndex lexemes formula
  | scripted {inIndex : Bool} {mark : Lexeme} {lexemes rest : List Lexeme} {atom : Atom}
      {formula : Formula} :
      Scripts inIndex (.scriptBase mark.span.start) (mark :: lexemes) atom →
      Items inIndex rest formula →
      Row inIndex (mark :: lexemes ++ rest) (atom :: formula)

inductive Items : Bool → List Lexeme → Formula → Prop
  | nil {inIndex : Bool} : Items inIndex [] []
  | cons {inIndex : Bool} {lexemes limits scripts rest : List Lexeme} {nucleus operator atom : Atom}
      {formula : Formula} :
      Nucleus inIndex lexemes nucleus → Limits nucleus limits operator →
      Scripts inIndex operator scripts atom → Items inIndex rest formula →
      Items inIndex (lexemes ++ limits ++ scripts ++ rest) (atom :: formula)

inductive Scripts : Bool → Atom → List Lexeme → Atom → Prop
  | nil {inIndex : Bool} (atom : Atom) : Scripts inIndex atom [] atom
  | cons {inIndex : Bool} {atom result : Atom} {which : Script} {mark : Lexeme}
      {lexemes rest : List Lexeme} {content : Formula} :
      mark.token.script? = some which → atom.kind.acceptsScripts = true →
      atom.script which = none → Argument inIndex lexemes content →
      Scripts inIndex
        (atom.withScript which content ⟨mark.span.start, Lexeme.endOf mark.span.stop lexemes⟩)
        rest result →
      Scripts inIndex atom (mark :: lexemes ++ rest) result

/-- An argument: a row in braces, or a nucleus that no brace opens. -/
inductive Argument : Bool → List Lexeme → Formula → Prop
  | braced {inIndex : Bool} {opened closed : Lexeme} {lexemes : List Lexeme} {content : Formula} :
      opened.token = .braceOpen → Row false lexemes content → closed.token = .braceClose →
      Argument inIndex (opened :: lexemes ++ [closed]) content
  | bare {inIndex : Bool} {lexeme : Lexeme} {lexemes : List Lexeme} {atom : Atom} :
      lexeme.token ≠ .braceOpen → Nucleus inIndex (lexeme :: lexemes) atom →
      Argument inIndex (lexeme :: lexemes) [atom]

inductive Arguments : Bool → List Lexeme → List Formula → Prop
  | nil {inIndex : Bool} : Arguments inIndex [] []
  | cons {inIndex : Bool} {lexemes rest : List Lexeme} {argument : Formula}
      {arguments : List Formula} :
      Argument inIndex lexemes argument → Arguments inIndex rest arguments →
      Arguments inIndex (lexemes ++ rest) (argument :: arguments)

inductive Nucleus : Bool → List Lexeme → Atom → Prop
  | character {inIndex : Bool} {lexeme : Lexeme} {c : Char} {kind : AtomKind} :
      lexeme.token = .character c → Literal.kind? c = some kind →
      Nucleus inIndex [lexeme] (.symbol kind (Literal.nucleus c) lexeme.span)
  | bracketOpen {inIndex : Bool} {lexeme : Lexeme} :
      lexeme.token = .bracketOpen → Nucleus inIndex [lexeme] (.symbol .opening "[" lexeme.span)
  | bracketClose {lexeme : Lexeme} :
      lexeme.token = .bracketClose → Nucleus false [lexeme] (.symbol .closing "]" lexeme.span)
  | group {inIndex : Bool} {opened closed : Lexeme} {lexemes : List Lexeme} {content : Formula} :
      opened.token = .braceOpen → Row false lexemes content → closed.token = .braceClose →
      Nucleus inIndex (opened :: lexemes ++ [closed])
        (.group content none ⟨opened.span.start, closed.span.stop⟩)
  /-- A command with its arguments, if it takes any.  A square bracket right after a command that
  takes an index opens the index. -/
  | command {inIndex : Bool} {lexeme : Lexeme} {name : String} {template : Template}
      {lexemes : List Lexeme} {arguments : List Formula} :
      lexeme.token = .command name → Command.find? name = some (.atom template) →
      (template.optionalArgument = true → ∀ next ∈ lexemes.head?, next.token ≠ .bracketOpen) →
      Arguments inIndex lexemes arguments → arguments.length = template.arguments →
      Nucleus inIndex (lexeme :: lexemes)
        { kind := template.kind, nucleus := template.nucleus, arguments
          span := ⟨lexeme.span.start, Lexeme.endOf lexeme.span.stop lexemes⟩ }
  | indexed {inIndex : Bool} {lexeme opened closed : Lexeme} {name : String} {template : Template}
      {lexemes rest : List Lexeme} {index : Formula} {arguments : List Formula} :
      lexeme.token = .command name → Command.find? name = some (.atom template) →
      template.optionalArgument = true →
      opened.token = .bracketOpen → Row true lexemes index → closed.token = .bracketClose →
      Arguments inIndex rest arguments → arguments.length = template.arguments →
      Nucleus inIndex (lexeme :: opened :: lexemes ++ closed :: rest)
        { kind := template.kind, nucleus := template.nucleus, arguments := arguments ++ [index]
          span := ⟨lexeme.span.start, Lexeme.endOf closed.span.stop rest⟩ }
  | fenced {inIndex : Bool} {lexeme left closed right : Lexeme} {name leftGlyph rightGlyph : String}
      {lexemes : List Lexeme} {content : Formula} :
      lexeme.token = .command name → Command.find? name = some .left →
      Delimiter.glyph? left.token = some leftGlyph → Row false lexemes content →
      closed.token = .command "right" → Delimiter.glyph? right.token = some rightGlyph →
      Nucleus inIndex (lexeme :: left :: lexemes ++ [closed, right])
        (.group content (some ⟨leftGlyph, rightGlyph⟩) ⟨lexeme.span.start, right.span.stop⟩)
  | table {inIndex : Bool} {opened closed : Lexeme} {environment : Environment}
      {lexemes : List Lexeme} {rows : List (List Formula)} :
      opened.token = .environmentBegin environment → Grid environment lexemes rows →
      closed.token = .environmentEnd environment →
      Nucleus inIndex (opened :: lexemes ++ [closed])
        { kind := .table, nucleus := environment.name, rows := dropEmptyRow rows
          span := ⟨opened.span.start, closed.span.stop⟩ }

/-- The cells in the body of a table, row by row: one mark divides the cells of a row, where the
environment has columns, and one divides the rows. -/
inductive Grid : Environment → List Lexeme → List (List Formula) → Prop
  | last {environment : Environment} {lexemes : List Lexeme} {cell : Formula} :
      Row false lexemes cell → Grid environment lexemes [[cell]]
  | column {environment : Environment} {lexemes rest : List Lexeme} {mark : Lexeme}
      {cell : Formula} {cells : List Formula} {rows : List (List Formula)} :
      environment.allowsColumns = true → Row false lexemes cell → mark.token = .columnMark →
      Grid environment rest (cells :: rows) →
      Grid environment (lexemes ++ mark :: rest) ((cell :: cells) :: rows)
  | row {environment : Environment} {lexemes rest : List Lexeme} {mark : Lexeme}
      {cell : Formula} {cells : List Formula} {rows : List (List Formula)} :
      Row false lexemes cell → mark.token = .command "\\" →
      Grid environment rest (cells :: rows) →
      Grid environment (lexemes ++ mark :: rest) ([cell] :: cells :: rows)

end

theorem Grid.exists_cons {environment : Environment} {lexemes : List Lexeme}
    {rows : List (List Formula)} (h : Grid environment lexemes rows) :
    ∃ cell cells others, rows = (cell :: cells) :: others := by
  cases h <;> exact ⟨_, _, _, rfl⟩

end Grammar

end TexMath
