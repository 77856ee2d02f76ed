import TexMath.Reading.Basic
import TexMath.Symbol.Command
import TexMath.Symbol.Delimiter
import TexMath.Symbol.Literal

/-!
# Reading a row of atoms

The rules for rows, arguments, scripts, groups and tables.  Three of them are recursive, and
`Readers` holds one function for each.  `Readers.next` builds these functions one level higher out
of those below, so that each rule is written without recursion; `Readers.upTo` iterates it.

The atoms of a row are kept latest first while the row is read, because a script and a limits
command change the latest atom.
-/

namespace TexMath

structure Readers where
  /-- Reads on in a row, up to a token that closes it, given the atoms of the row so far. -/
  row : Context → List Atom → Reading Formula
  /-- Adds to a row what begins with a lexeme that has been taken. -/
  lexeme : Context → Lexeme → List Atom → Reading (List Atom)
  /-- Reads on in the body of an environment, given its full rows and the cells of the last one,
  each latest first. -/
  grid : Context → Environment → Span → List (List Formula) → List Formula →
    Reading (List (List Formula))

def Readers.idle : Readers where
  row _ atoms := pure atoms.reverse
  lexeme _ _ atoms := pure atoms
  grid _ _ _ rows _ := pure rows.reverse

namespace Readers

variable (readers : Readers) (context : Context)

/-! ## Groups and arguments -/

def enclosed (closer : Closer) (close : Token) (cause : Cause) (opened : Span) :
    Reading Formula := do
  let content ← context.inGroup closer opened fun inside => readers.row inside []
  let next ← context.peek
  if next.token = close then Context.advance next
  else context.report ⟨cause, opened⟩
  pure content

def braced (opened : Span) : Reading Formula :=
  readers.enclosed context .brace .braceClose .unbalancedBraces opened

def missingArgument (command : String) (next : Span) : Reading Formula := do
  if context.options.fillMissing then
    pure [.symbol .placeholder "□" (.point next.start)]
  else
    context.report ⟨.missingArgument command, next⟩
    pure []

def argument (command : String) : Reading Formula := do
  let next ← context.peek
  if next.token = .braceOpen then
    Context.advance next
    readers.braced context next.span
  else if context.startsArgument next.token then
    Context.advance next
    context.deeper next.span fun inside => do
      let atoms ← readers.lexeme inside next []
      pure atoms.reverse
  else
    missingArgument context command next.span

def arguments (command : String) : Nat → Reading (List Formula)
  | 0 => pure []
  | count + 1 => do
      let first ← readers.argument context command
      let rest ← arguments command count
      pure (first :: rest)

def index? : Reading (Option Formula) := do
  let next ← context.peek
  if next.token = .bracketOpen then
    Context.advance next
    let index ← readers.enclosed context .bracket .bracketClose .unbalancedBrackets next.span
    pure (some index)
  else
    pure none

/-- The atom of a command, with its arguments.  The optional one comes first in the source and
last in the atom. -/
def structured (template : Template) (name : String) (span : Span) : Reading Atom := do
  if template.arguments = 0 ∧ ¬ template.optionalArgument then
    pure (.symbol template.kind template.nucleus span)
  else
    let index ← if template.optionalArgument then readers.index? context else pure none
    let arguments ← readers.arguments context ("\\" ++ name) template.arguments
    pure {
      kind := template.kind
      nucleus := template.nucleus
      arguments := arguments ++ index.toList
      span := ⟨span.start, ← lastEnd⟩ }

/-! ## Scripts and limits -/

def scriptProblem? (atom : Atom) (which : Script) : Option Cause :=
  if !atom.kind.acceptsScripts then some (.scriptNotAllowed which)
  else if (atom.script which).isSome then some (.duplicateScript which)
  else none

/-- Reads a script for the atom.  One that the atom does not take is read and left out. -/
def scripted (which : Script) (mark : Span) (atom : Atom) : Reading Atom := do
  match scriptProblem? atom which with
  | some cause =>
      context.report ⟨cause, mark⟩
      let _ ← readers.argument context which.mark
      pure atom
  | none =>
      let content ← readers.argument context which.mark
      let span := atom.span.cover ⟨mark.start, ← lastEnd⟩
      pure { atom.setScript which (some content) with span }

/-- Reads a script for the latest atom of the row.  At the start of a row that is an empty atom.
A mark right after the mark is left to be read next. -/
def script (which : Script) (mark : Span) (atoms : List Atom) : Reading (List Atom) := do
  let next ← context.peek
  match next.token.script? with
  | some following =>
      let cause := if following = which then .duplicateScript which else .missingArgument which.mark
      context.report ⟨cause, next.span⟩
      pure atoms
  | none =>
      match atoms with
      | [] =>
          let base : Atom := .symbol .ordinary "" (.point mark.start)
          return [← readers.scripted context which mark base]
      | atom :: earlier => return (← readers.scripted context which mark atom) :: earlier

def setLimits (value : Bool) (span : Span) (atoms : List Atom) : Reading (List Atom) := do
  match atoms with
  | atom@{ kind := .largeOperator _, superscript := none, subscript := none, .. }
      :: earlier =>
      pure ({ atom with kind := .largeOperator value, span := atom.span.cover span } :: earlier)
  | _ =>
      context.report ⟨.invalidLimits, span⟩
      pure atoms

/-! ## Fenced groups -/

def delimiter (fence : Fence) (place : Span) : Reading String := do
  let next ← context.peek
  if next.token = .sourceEnd ∨ next.token = .braceClose then
    context.report ⟨.missingDelimiter fence, place⟩
    pure ""
  else
    Context.advance next
    match Delimiter.glyph? next.token with
    | some glyph => pure glyph
    | none =>
        context.report ⟨.invalidDelimiter (Text.trimEnd next.text), next.span⟩
        pure ""

def fenced (opened : Span) : Reading Atom := do
  let left ← delimiter context .left opened
  let content ← context.inGroup .right opened fun inside => readers.row inside []
  let next ← context.peek
  let right ←
    if next.token = .command "right" then do
      Context.advance next
      delimiter context .right next.span
    else do
      context.report ⟨.missingRight, opened⟩
      pure ""
  pure (.group content (some ⟨left, right⟩) ⟨opened.start, ← lastEnd⟩)

def strayRight (span : Span) : Reading Unit := do
  context.report ⟨.missingLeft, span⟩
  let next ← context.peek
  if (Delimiter.glyph? next.token).isSome then Context.advance next

/-! ## Tables -/

/-- The rows of a table.  A last row that is one empty cell is none: a separator of rows ends the
row before it and need not begin another. -/
def closeGrid (rows : List (List Formula)) (cells : List Formula) : List (List Formula) :=
  match cells with
  | [[]] => rows.reverse
  | _ => (cells.reverse :: rows).reverse

def gridStep (environment : Environment) (opened : Span) (rows : List (List Formula))
    (cells : List Formula) : Reading (List (List Formula)) := do
  let cell ← context.inGroup .cell opened fun inside => readers.row inside []
  let cells := cell :: cells
  let next ← context.peek
  match next.token with
  | .columnMark =>
      Context.advance next
      if !environment.allowsColumns then
        context.report ⟨.misplacedSeparator .column, next.span⟩
      readers.grid context environment opened rows cells
  | .environmentEnd found =>
      Context.advance next
      if found ≠ environment then
        context.report ⟨.mismatchedEnvironment environment found, next.span⟩
      pure (closeGrid rows cells)
  | token =>
      if token = .command "\\" then
        Context.advance next
        readers.grid context environment opened (cells.reverse :: rows) []
      else
        context.report ⟨.missingEnd environment, opened⟩
        pure (closeGrid rows cells)

def table (environment : Environment) (opened : Span) : Reading Atom := do
  let rows ← readers.gridStep context environment opened [] []
  pure {
    kind := .table
    nucleus := environment.name
    rows
    span := ⟨opened.start, ← lastEnd⟩ }

/-! ## Rows -/

def command (name : String) (span : Span) (atoms : List Atom) : Reading (List Atom) := do
  match Command.find? name with
  | none =>
      context.report ⟨.unknownCommand name, span⟩
      pure (.symbol .error name span :: atoms)
  | some (.atom template) => return (← readers.structured context template name span) :: atoms
  | some (.limits value) => setLimits context value span atoms
  | some .left => return (← readers.fenced context span) :: atoms
  | some .right =>
      strayRight context span
      pure atoms
  | some .newRow =>
      context.report ⟨.misplacedSeparator .row, span⟩
      pure atoms

def lexemeStep (lexeme : Lexeme) (atoms : List Atom) : Reading (List Atom) := do
  let span := lexeme.span
  match lexeme.token with
  | .character c =>
      match Literal.kind? c with
      | some kind => pure (.symbol kind (Literal.nucleus c) span :: atoms)
      | none =>
          context.report ⟨.unexpectedCharacter c, span⟩
          pure (.symbol .error (String.singleton c) span :: atoms)
  | .bracketOpen => pure (.symbol .opening "[" span :: atoms)
  | .bracketClose => pure (.symbol .closing "]" span :: atoms)
  | .braceOpen =>
      let content ← readers.braced context span
      return .group content none ⟨span.start, ← lastEnd⟩ :: atoms
  | .braceClose =>
      context.report ⟨.unbalancedBraces, span⟩
      pure atoms
  | .superscriptMark => readers.script context .superscript span atoms
  | .subscriptMark => readers.script context .subscript span atoms
  | .command name => readers.command context name span atoms
  | .environmentBegin environment => return (← readers.table context environment span) :: atoms
  | .environmentEnd environment =>
      context.report ⟨.missingBegin environment, span⟩
      pure atoms
  | .columnMark =>
      context.report ⟨.misplacedSeparator .column, span⟩
      pure atoms
  | .blank | .comment | .sourceEnd => pure atoms

def rowStep (atoms : List Atom) : Reading Formula := do
  let next ← context.peek
  if context.closes next.token then
    pure atoms.reverse
  else
    Context.advance next
    let atoms ← readers.lexemeStep context next atoms
    readers.row context atoms

def next : Readers where
  row := readers.rowStep
  lexeme := readers.lexemeStep
  grid := readers.gridStep

def upTo : Nat → Readers
  | 0 => Readers.idle
  | bound + 1 => (upTo bound).next

end Readers

end TexMath
