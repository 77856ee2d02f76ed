import TexMath.Atom.Basic
import TexMath.Text.Quoted

/-!
# Outlines

A formula written out with all its fields, each on a line of its own and indented below the value
it belongs to.
-/

namespace TexMath

inductive Outline where
  | word (text : String)
  | record (name : String) (fields : List (String × Outline))
  | list (items : List Outline)
  | some (value : Outline)

namespace Outline

def indent (depth : Nat) : String := String.ofList (List.replicate (4 * depth) ' ')

mutual

/-- The text of a value whose first line is already indented to the depth. -/
def render (depth : Nat) : Outline → String
  | word text => text
  | record name fields =>
      name ++ " \x7b\n" ++ renderFields (depth + 1) fields ++ indent depth ++ "\x7d"
  | list [] => "[]"
  | list (item :: items) =>
      "[\n" ++ renderItems (depth + 1) (item :: items) ++ indent depth ++ "]"
  | some value =>
      "Some(\n" ++ indent (depth + 1) ++ render (depth + 1) value ++ ",\n" ++ indent depth ++ ")"

def renderFields (depth : Nat) : List (String × Outline) → String
  | [] => ""
  | (name, value) :: rest =>
      indent depth ++ name ++ ": " ++ render depth value ++ ",\n" ++ renderFields depth rest

def renderItems (depth : Nat) : List Outline → String
  | [] => ""
  | value :: rest => indent depth ++ render depth value ++ ",\n" ++ renderItems depth rest

end

def ofOption : Option Outline → Outline
  | .none => word "None"
  | .some value => some value

def ofText (text : String) : Outline := word (Text.quoted text)

def ofBool (value : Bool) : Outline := word (if value then "true" else "false")

def ofNat (n : Nat) : Outline := word (toString n)

end Outline

def AtomKind.outline : AtomKind → Outline
  | ordinary => .word "Ordinary"
  | largeOperator limits => .record "LargeOperator" [("limits", .ofBool limits)]
  | binaryOperator => .word "BinaryOperator"
  | relation => .word "Relation"
  | opening => .word "Open"
  | closing => .word "Close"
  | punctuation => .word "Punctuation"
  | fraction rule => .record "Fraction" [("rule", .ofBool rule)]
  | radical => .word "Radical"
  | accent => .word "Accent"
  | underline => .word "Underline"
  | overline => .word "Overline"
  | space => .word "Space"
  | style => .word "Style"
  | inner => .word "Inner"
  | table => .word "Table"
  | placeholder => .word "Placeholder"
  | error => .word "Error"

def Span.outline (span : Span) : Outline :=
  .record "Span" [("start", .ofNat span.start), ("end", .ofNat span.stop)]

def Boundaries.outline (boundaries : Boundaries) : Outline :=
  .record "Boundaries" [("left", .ofText boundaries.left), ("right", .ofText boundaries.right)]

def Outline.ofAtoms (atoms : List Outline) : Outline := .record "MathList" [("atoms", .list atoms)]

mutual

def Formula.atomOutlines : List Atom → List Outline
  | [] => []
  | atom :: rest => Atom.outline atom :: Formula.atomOutlines rest

def Atom.outline : Atom → Outline
  | ⟨kind, nucleus, arguments, superscript, subscript, boundaries, rows, span⟩ =>
      .record "Atom"
        [("kind", kind.outline), ("nucleus", .ofText nucleus),
          ("arguments", .list (Formula.outlines arguments)),
          ("superscript", .ofOption (Formula.scriptOutline superscript)),
          ("subscript", .ofOption (Formula.scriptOutline subscript)),
          ("boundaries", .ofOption (boundaries.map Boundaries.outline)),
          ("rows", .list (Formula.rowOutlines rows)), ("span", span.outline)]

def Formula.outlines : List (List Atom) → List Outline
  | [] => []
  | formula :: rest => .ofAtoms (Formula.atomOutlines formula) :: Formula.outlines rest

def Formula.scriptOutline : Option (List Atom) → Option Outline
  | none => none
  | some formula => some (.ofAtoms (Formula.atomOutlines formula))

def Formula.rowOutlines : List (List (List Atom)) → List Outline
  | [] => []
  | row :: rest => .list (Formula.outlines row) :: Formula.rowOutlines rest

end

def Formula.outline (formula : Formula) : String :=
  (Outline.ofAtoms (Formula.atomOutlines formula)).render 0

end TexMath
