/-!
# Lines and columns

Where an offset lies in a text, for a reader who counts lines and characters.
-/

namespace TexMath.Text

/-- A line and a column, both counted from one. -/
structure Position where
  line : Nat := 1
  column : Nat := 1
deriving DecidableEq, Repr

/-- Whether a line ends after the character, given what follows.  A carriage return and a line
feed end it together. -/
def endsLine (c : Char) (rest : List Char) : Bool :=
  if c = '\r' then rest.head? != some '\n'
  else ['\n', '\x0b', '\x0c', '\u0085', '\u2028', '\u2029'].contains c

def Position.walk (position : Position) (ahead : Nat) : List Char → Position
  | [] => position
  | c :: rest =>
      if ahead = 0 then position
      else if endsLine c rest ∧ ¬ rest.isEmpty then
        Position.walk ⟨position.line + 1, 1⟩ (ahead - c.utf8Size) rest
      else
        Position.walk ⟨position.line, position.column + 1⟩ (ahead - c.utf8Size) rest

/-- The position of a byte offset.  The end of the text lies on the last line that has any
characters, also if that line is ended. -/
def positionAt (text : String) (offset : Nat) : Position :=
  Position.walk {} offset text.toList

end TexMath.Text
