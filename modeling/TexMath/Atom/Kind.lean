/-!
# Kinds of atoms

The kind of an atom says which class of symbol or structure it is.  Two kinds carry a property
that the command fixed: where a large operator sets its scripts, and whether a fraction is ruled.
-/

namespace TexMath

inductive AtomKind where
  | ordinary
  | largeOperator (limits : Bool)
  | binaryOperator
  | relation
  | opening
  | closing
  | punctuation
  | fraction (rule : Bool)
  | radical
  | accent
  | underline
  | overline
  | space
  | style
  | inner
  | table
  | placeholder
  | error
deriving DecidableEq, Repr, Inhabited

namespace AtomKind

def acceptsScripts : AtomKind → Bool
  | space | style => false
  | _ => true

/-- The least and the greatest number of arguments. -/
def argumentRange : AtomKind → Nat × Nat
  | fraction _ => (2, 2)
  | radical => (1, 2)
  | accent | underline | overline | inner => (1, 1)
  | _ => (0, 0)

/-- The kind with the position of limits forgotten: one operator keeps its name wherever its
scripts are set. -/
def family : AtomKind → AtomKind
  | largeOperator _ => largeOperator false
  | kind => kind

theorem family_family (kind : AtomKind) : kind.family.family = kind.family := by
  cases kind <;> rfl

theorem acceptsScripts_iff (kind : AtomKind) :
    kind.acceptsScripts = true ↔ kind ≠ space ∧ kind ≠ style := by
  cases kind <;> simp [acceptsScripts]

end AtomKind

end TexMath
