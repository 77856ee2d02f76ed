import TexMath.Canonical
import TexMath.Reading.Run

/-!
# Editing a formula

The steps in which a formula is built by hand.  Where a step names an atom by its index, there has
to be such an atom.
-/

namespace TexMath

namespace Formula

def slice (formula : Formula) (start stop : Nat) : Formula := (formula.take stop).drop start

def wrapped (formula : Formula) : Formula := [.group formula]

def reread (formula : Formula) : Except ParseError Formula := read formula.text

end Formula

namespace Atom

def addArgument (atom : Atom) (argument : Formula) : Atom :=
  { atom with arguments := atom.arguments ++ [argument] }

def addRow (atom : Atom) (row : List Formula) : Atom := { atom with rows := atom.rows ++ [row] }

def readRow (cells : List String) : Except ParseError (List Formula) := cells.mapM Formula.read

end Atom

end TexMath
