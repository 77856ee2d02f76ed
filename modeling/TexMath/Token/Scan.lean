import TexMath.Text.Blank
import TexMath.Text.Utf8
import TexMath.Token.Basic

/-!
# Scanning a source

`Cursor.scan` reads one item off the rest of a source: the longest token that starts there, or the
error of text that forms no token.  `items` repeats it to the end of the source.
-/

namespace TexMath

open Text

/-- A place in a source: the rest of the source and the offset at which the rest starts. -/
structure Cursor where
  offset : Nat
  rest : List Char
deriving DecidableEq, Repr

namespace Cursor

def start (source : String) : Cursor := ⟨0, source.toList⟩

def past (cursor : Cursor) (c : Char) (rest : List Char) : Cursor :=
  ⟨cursor.offset + c.utf8Size, rest⟩

def run (cursor : Cursor) (p : Char → Bool) : List Char := cursor.rest.takeWhile p

def pastRun (cursor : Cursor) (p : Char → Bool) : Cursor :=
  ⟨cursor.offset + width (cursor.run p), cursor.rest.dropWhile p⟩

theorem run_append_rest (cursor : Cursor) (p : Char → Bool) :
    cursor.run p ++ (cursor.pastRun p).rest = cursor.rest :=
  List.takeWhile_append_dropWhile

def throughNext (cursor : Cursor) (c : Char) : List Char :=
  cursor.run (· != c) ++ (cursor.rest.dropWhile (· != c)).take 1

def pastNext (cursor : Cursor) (c : Char) : Cursor :=
  ⟨cursor.offset + width (cursor.throughNext c), (cursor.rest.dropWhile (· != c)).drop 1⟩

theorem throughNext_append_rest (cursor : Cursor) (c : Char) :
    cursor.throughNext c ++ (cursor.pastNext c).rest = cursor.rest := by
  simp only [throughNext, pastNext, run, List.append_assoc, List.take_append_drop,
    List.takeWhile_append_dropWhile]

def spanTo (first last : Cursor) : Span := ⟨first.offset, last.offset⟩

/-! ## Commands -/

/-- The name of a command, and the cursor behind it.  It is the longest run of letters, or else
one other character; at the end of the source there is none. -/
def commandName? (cursor : Cursor) : Option (String × Cursor) :=
  match cursor.rest with
  | [] => none
  | c :: rest =>
      if c.isAlpha then some (String.ofList (cursor.run Char.isAlpha), cursor.pastRun Char.isAlpha)
      else some (String.singleton c, cursor.past c rest)

def isEnvironmentCharacter (c : Char) : Bool := c.isAlpha || c == '*'

/-- Reads the braced name of an environment.  After a wrong character in the name, the text up to
the next closing brace is left out. -/
def environmentName (command : String) (cursor : Cursor) :
    Except ParseError (List Char) × Cursor :=
  match cursor.rest with
  | [] => (.error ⟨.missingArgument command, .point cursor.offset⟩, cursor)
  | '\x7b' :: rest =>
      let opened := cursor.past '\x7b' rest
      let named := opened.pastRun isEnvironmentCharacter
      match named.rest with
      | [] => (.error ⟨.unbalancedBraces, .point named.offset⟩, named)
      | '\x7d' :: rest => (.ok (opened.run isEnvironmentCharacter), named.past '\x7d' rest)
      | c :: rest =>
          let wrong := named.past c rest
          (.error ⟨.unexpectedCharacter c, named.spanTo wrong⟩, wrong.pastNext '\x7d')
  | c :: rest =>
      let wrong := cursor.past c rest
      (.error ⟨.missingArgument command, cursor.spanTo wrong⟩, wrong)

/-- Reads on after `\begin` or `\end`, which starts at `first` and, with the white space after it,
covers `lead`. -/
def scanEnvironment (first : Cursor) (lead : List Char) (command : String)
    (token : Environment → Token) (cursor : Cursor) : Item × Cursor :=
  match cursor.environmentName command with
  | (.error error, after) => (.fault error, after)
  | (.ok name, after) =>
      match Environment.ofName? (String.ofList name) with
      | none => (.fault ⟨.unknownEnvironment (String.ofList name), cursor.spanTo after⟩, after)
      | some environment =>
          let text := String.ofList (lead ++ '\x7b' :: name ++ ['\x7d'])
          (.lexeme ⟨token environment, first.spanTo after, text⟩, after)

def scanCommand (first cursor : Cursor) : Item × Cursor :=
  match cursor.commandName? with
  | none => (.fault ⟨.unexpectedCharacter '\\', first.spanTo cursor⟩, cursor)
  | some (name, named) =>
      let after := named.pastRun isSpacing
      let lead := '\\' :: name.toList
      match name with
      | "begin" =>
          scanEnvironment first (lead ++ named.run isSpacing) "\\begin" .environmentBegin after
      | "end" =>
          scanEnvironment first (lead ++ named.run isSpacing) "\\end" .environmentEnd after
      | _ => (.lexeme ⟨.command name, first.spanTo named, String.ofList lead⟩, after)

/-! ## Items -/

def characterToken? (c : Char) : Option Token :=
  match c with
  | '&' => some .columnMark
  | '[' => some .bracketOpen
  | ']' => some .bracketClose
  | '\x7b' => some .braceOpen
  | '\x7d' => some .braceClose
  | '^' => some .superscriptMark
  | '_' => some .subscriptMark
  | '#' | '$' | '~' => none
  | _ => if isControl c then none else some (.character c)

/-- Reads the next item.  At the end of the source that is the end, again and again. -/
def scan (cursor : Cursor) : Item × Cursor :=
  match cursor.rest with
  | [] => (.lexeme ⟨.sourceEnd, .point cursor.offset, ""⟩, cursor)
  | c :: rest =>
      let after := cursor.past c rest
      if isSpacing c then
        let last := cursor.pastRun isSpacing
        (.lexeme ⟨.blank, cursor.spanTo last, String.ofList (cursor.run isSpacing)⟩, last)
      else if c = '%' then
        let last := after.pastNext '\n'
        (.lexeme ⟨.comment, cursor.spanTo last, String.ofList (c :: after.throughNext '\n')⟩, last)
      else if c = '\\' then scanCommand cursor after
      else
        match characterToken? c with
        | none => (.fault ⟨.unexpectedCharacter c, cursor.spanTo after⟩, after)
        | some token => (.lexeme ⟨token, cursor.spanTo after, String.singleton c⟩, after)

def items (cursor : Cursor) : Nat → List Item
  | 0 => []
  | bound + 1 =>
      match cursor.rest with
      | [] => []
      | _ :: _ => cursor.scan.1 :: cursor.scan.2.items bound

end Cursor

/-- The items of a source, its end not included.  Each of them takes at least one character, so
that their number needs no other bound. -/
def items (source : String) : List Item := (Cursor.start source).items source.toList.length

def significantItems (source : String) : List Item := (items source).filter Item.isSignificant

end TexMath
