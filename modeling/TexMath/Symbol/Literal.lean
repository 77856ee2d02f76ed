import TexMath.Atom.Kind
import TexMath.Text.Blank

/-!
# Literal characters

The atoms that a character stands for when it is written as it is.  Every character that is
neither ASCII nor blank nor a control character is an ordinary symbol.
-/

namespace TexMath.Literal

open Text

def kind? (c : Char) : Option AtomKind :=
  if c.isAlphanum || c ∈ ['.', '/', '|', '@', '"', '\x60', '\''] then some .ordinary
  else if c ∈ ['+', '-', '*'] then some .binaryOperator
  else if c ∈ ['=', '<', '>', ':'] then some .relation
  else if c ∈ ['(', '['] then some .opening
  else if c ∈ [')', ']', '!', '?'] then some .closing
  else if c ∈ [',', ';'] then some .punctuation
  else if !isAscii c && !isControl c && !isBlank c then some .ordinary
  else none

def typeset : List (Char × String) := [('-', "−"), ('*', "∗"), ('\'', "′")]

def nucleus (c : Char) : String := (typeset.lookup c).getD (String.singleton c)

def char? (kind : AtomKind) (nucleus : String) : Option Char :=
  match typeset.find? fun entry => entry.2 == nucleus && kind? entry.1 == some kind with
  | some entry => some entry.1
  | none =>
      match nucleus.toList with
      | [c] =>
          if isAscii c && (typeset.lookup c).isNone && kind? c == some kind then some c else none
      | _ => none

end TexMath.Literal
