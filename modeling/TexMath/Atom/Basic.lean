import TexMath.Atom.Kind
import TexMath.Span

/-!
# Atoms and formulas

A formula is a row of atoms.  An atom has a kind and a nucleus and, as its kind allows, arguments,
scripts, delimiters or the rows of a table, each cell of which is a formula again.
-/

namespace TexMath

inductive Script where
  | superscript
  | subscript
deriving DecidableEq, Repr

def Script.mark : Script → String
  | .superscript => "^"
  | .subscript => "_"

/-- The delimiters of a fenced group.  An empty text stands for the invisible delimiter. -/
structure Boundaries where
  left : String
  right : String
deriving DecidableEq, Repr

structure Atom where
  kind : AtomKind
  nucleus : String
  arguments : List (List Atom) := []
  superscript : Option (List Atom) := none
  subscript : Option (List Atom) := none
  boundaries : Option Boundaries := none
  rows : List (List (List Atom)) := []
  span : Span := {}
deriving Repr

abbrev Formula := List Atom

namespace Atom

def symbol (kind : AtomKind) (nucleus : String) (span : Span := {}) : Atom :=
  { kind, nucleus, span }

def group (content : Formula) (boundaries : Option Boundaries := none) (span : Span := {}) : Atom :=
  { kind := .inner, nucleus := "", arguments := [content], boundaries, span }

def script (atom : Atom) : Script → Option Formula
  | .superscript => atom.superscript
  | .subscript => atom.subscript

def setScript (atom : Atom) (which : Script) (content : Option Formula) : Atom :=
  match which with
  | .superscript => { atom with superscript := content }
  | .subscript => { atom with subscript := content }

def hasScripts (atom : Atom) : Bool := atom.superscript.isSome || atom.subscript.isSome

def slots (atom : Atom) : List Formula :=
  atom.arguments ++ atom.superscript.toList ++ atom.subscript.toList ++ atom.rows.flatten

/-- The conditions on an atom that do not look below it: the kind is not `error`, allows the
number of arguments, and allows scripts if there are any. -/
def isSound (atom : Atom) : Bool :=
  decide (atom.kind.argumentRange.1 ≤ atom.arguments.length) &&
    decide (atom.arguments.length ≤ atom.kind.argumentRange.2) &&
    atom.kind != .error && (!atom.hasScripts || atom.kind.acceptsScripts)

@[simp] theorem script_setScript (atom : Atom) (which : Script) (content : Option Formula) :
    (atom.setScript which content).script which = content := by
  cases which <;> rfl

theorem script_setScript_of_ne (atom : Atom) {which other : Script} (content : Option Formula)
    (h : other ≠ which) : (atom.setScript which content).script other = atom.script other := by
  cases which <;> cases other <;> simp_all [setScript, script]

end Atom

/-! ## Complete formulas -/

mutual

def Formula.isComplete : List Atom → Bool
  | [] => true
  | atom :: rest => Atom.isComplete atom && Formula.isComplete rest

def Atom.isComplete : Atom → Bool
  | atom@⟨_, _, arguments, superscript, subscript, _, rows, _⟩ =>
      atom.isSound && Formula.areComplete arguments && Formula.isCompleteScript superscript &&
        Formula.isCompleteScript subscript && Formula.areCompleteRows rows

def Formula.areComplete : List (List Atom) → Bool
  | [] => true
  | formula :: rest => Formula.isComplete formula && Formula.areComplete rest

def Formula.isCompleteScript : Option (List Atom) → Bool
  | none => true
  | some formula => Formula.isComplete formula

def Formula.areCompleteRows : List (List (List Atom)) → Bool
  | [] => true
  | row :: rest => Formula.areComplete row && Formula.areCompleteRows rest

end

end TexMath
