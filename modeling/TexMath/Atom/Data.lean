import TexMath.Atom.Equality
import TexMath.Data

/-!
# Formulas as data

`Formula.toData` gives a formula as a list of records, one for each atom, and `Formula.ofData?`
reads it back.  Empty arguments and rows and absent scripts and boundaries are left out.
-/

namespace TexMath

/-! ## Kinds, spans and boundaries -/

namespace AtomKind

def plainNames : List (String × AtomKind) :=
  [("ordinary", ordinary), ("binary-operator", binaryOperator), ("relation", relation),
    ("open", opening), ("close", closing), ("punctuation", punctuation), ("radical", radical),
    ("accent", accent), ("underline", underline), ("overline", overline), ("space", space),
    ("style", style), ("inner", inner), ("table", table), ("placeholder", placeholder),
    ("error", error)]

def plainName (kind : AtomKind) : String :=
  ((plainNames.find? fun entry => entry.2 == kind).map Prod.fst).getD ""

def toData : AtomKind → Data
  | largeOperator limits => .record [("large-operator", .record [("limits", .bool limits)])]
  | fraction rule => .record [("fraction", .record [("rule", .bool rule)])]
  | kind => .text kind.plainName

def ofData? : Data → Option AtomKind
  | .text name => plainNames.lookup name
  | .record [("large-operator", payload)] =>
      ((payload.field? "limits").bind Data.bool?).map largeOperator
  | .record [("fraction", payload)] => ((payload.field? "rule").bind Data.bool?).map fraction
  | _ => none

theorem ofData?_toData (kind : AtomKind) : ofData? kind.toData = some kind := by
  cases kind <;> rfl

end AtomKind

namespace Span

def toData (span : Span) : Data :=
  .record [("start", .integer span.start), ("end", .integer span.stop)]

def ofData? (data : Data) : Option Span := do
  let start ← (data.field? "start").bind Data.nat?
  let stop ← (data.field? "end").bind Data.nat?
  pure ⟨start, stop⟩

theorem ofData?_toData (span : Span) : ofData? span.toData = some span := rfl

end Span

namespace Boundaries

def toData (boundaries : Boundaries) : Data :=
  .record [("left", .text boundaries.left), ("right", .text boundaries.right)]

def ofData? (data : Data) : Option Boundaries := do
  let left ← (data.field? "left").bind Data.text?
  let right ← (data.field? "right").bind Data.text?
  pure ⟨left, right⟩

theorem ofData?_toData (boundaries : Boundaries) :
    ofData? boundaries.toData = some boundaries := rfl

end Boundaries

/-! ## Writing -/

def Formula.listField (name : String) : List Data → List (String × Data)
  | [] => []
  | values => [(name, .list values)]

mutual

def Formula.atomsData : List Atom → List Data
  | [] => []
  | atom :: rest => Atom.toData atom :: Formula.atomsData rest

def Atom.toData : Atom → Data
  | ⟨kind, nucleus, arguments, superscript, subscript, boundaries, rows, span⟩ =>
      .record
        ([("kind", kind.toData), ("nucleus", .text nucleus)] ++
          Formula.listField "arguments" (Formula.allData arguments) ++
          Formula.scriptField "superscript" superscript ++
          Formula.scriptField "subscript" subscript ++
          (boundaries.map fun boundaries => ("boundaries", boundaries.toData)).toList ++
          Formula.listField "rows" (Formula.rowsData rows) ++
          [("span", span.toData)])

def Formula.allData : List (List Atom) → List Data
  | [] => []
  | formula :: rest => .list (Formula.atomsData formula) :: Formula.allData rest

def Formula.scriptField (name : String) : Option (List Atom) → List (String × Data)
  | none => []
  | some formula => [(name, .list (Formula.atomsData formula))]

def Formula.rowsData : List (List (List Atom)) → List Data
  | [] => []
  | row :: rest => .list (Formula.allData row) :: Formula.rowsData rest

end

def Formula.toData (formula : Formula) : Data := .list (Formula.atomsData formula)

/-! ## Reading -/

structure AtomFields where
  kind : Option AtomKind := none
  nucleus : Option String := none
  arguments : List (List Atom) := []
  superscript : Option (List Atom) := none
  subscript : Option (List Atom) := none
  boundaries : Option Boundaries := none
  rows : List (List (List Atom)) := []
  span : Span := {}

def AtomFields.atom? (fields : AtomFields) : Option Atom := do
  pure {
    kind := ← fields.kind
    nucleus := ← fields.nucleus
    arguments := fields.arguments
    superscript := fields.superscript
    subscript := fields.subscript
    boundaries := fields.boundaries
    rows := fields.rows
    span := fields.span }

def Boundaries.optional? : Data → Option (Option Boundaries)
  | .null => some none
  | data => (Boundaries.ofData? data).map some

mutual

def Formula.ofData? : Data → Option (List Atom)
  | .list values => Formula.ofList? values
  | _ => none

def Formula.ofList? : List Data → Option (List Atom)
  | [] => some []
  | value :: rest => do
      let atom ← Atom.ofData? value
      let atoms ← Formula.ofList? rest
      pure (atom :: atoms)

def Atom.ofData? : Data → Option Atom
  | .record fields => (AtomFields.ofList? fields).bind AtomFields.atom?
  | _ => none

def AtomFields.ofList? : List (String × Data) → Option AtomFields
  | [] => some {}
  | (name, value) :: rest => do
      let fields ← AtomFields.ofList? rest
      match name with
      | "kind" => pure { fields with kind := some (← AtomKind.ofData? value) }
      | "nucleus" => pure { fields with nucleus := some (← value.text?) }
      | "arguments" => pure { fields with arguments := ← Formula.allOfData? value }
      | "superscript" => pure { fields with superscript := ← Formula.scriptOfData? value }
      | "subscript" => pure { fields with subscript := ← Formula.scriptOfData? value }
      | "boundaries" => pure { fields with boundaries := ← Boundaries.optional? value }
      | "rows" => pure { fields with rows := ← Formula.rowsOfData? value }
      | "span" => pure { fields with span := ← Span.ofData? value }
      | _ => pure fields

def Formula.scriptOfData? : Data → Option (Option (List Atom))
  | .null => some none
  | .list values => (Formula.ofList? values).map some
  | _ => none

def Formula.allOfData? : Data → Option (List (List Atom))
  | .list values => Formula.allOfList? values
  | _ => none

def Formula.allOfList? : List Data → Option (List (List Atom))
  | [] => some []
  | value :: rest => do
      let formula ← Formula.ofData? value
      let formulas ← Formula.allOfList? rest
      pure (formula :: formulas)

def Formula.rowsOfData? : Data → Option (List (List (List Atom)))
  | .list values => Formula.rowsOfList? values
  | _ => none

def Formula.rowsOfList? : List Data → Option (List (List (List Atom)))
  | [] => some []
  | value :: rest => do
      let row ← Formula.allOfData? value
      let rows ← Formula.rowsOfList? rest
      pure (row :: rows)

end

end TexMath
