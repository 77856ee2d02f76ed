import TexMath.Atom.Data

/-!
# Formulas written as data and read back

Reading undoes writing for every formula, also for one that no source is read as.  Each atom has one
record: fields that hold nothing are left out of it, while an empty script and an empty row of a
table are written as empty lists.
-/

namespace TexMath

/-! ## Lists of formulas -/

namespace Formula

theorem atomsData_eq_map (formula : Formula) : atomsData formula = formula.map Atom.toData := by
  induction formula with
  | nil => simp [atomsData]
  | cons atom rest ih => simp [atomsData, ih]

theorem allData_eq_map (formulas : List Formula) : allData formulas = formulas.map toData := by
  induction formulas with
  | nil => simp [allData]
  | cons formula rest ih => simp [allData, toData, ih]

theorem rowsData_eq_map (rows : List (List Formula)) :
    rowsData rows = rows.map fun row => .list (row.map toData) := by
  induction rows with
  | nil => simp [rowsData]
  | cons row rest ih => simp [rowsData, allData_eq_map, ih]

theorem scriptField_eq (name : String) (script : Option Formula) :
    scriptField name script = (script.map fun formula => (name, toData formula)).toList := by
  cases script <;> simp [scriptField, toData]

end Formula

/-! ## Fields that may be left out -/

namespace Data

variable {α : Type} (name other : String)

theorem lookup_listField (values : List Data) :
    (Formula.listField name values).lookup other =
      if other = name ∧ values ≠ [] then some (.list values) else none := by
  cases values with
  | nil => simp [Formula.listField]
  | cons value values =>
      by_cases h : other = name
      · simp [Formula.listField, h]
      · simp [Formula.listField, List.lookup_cons, h, beq_false_of_ne h]

theorem names_listField (values : List Data) :
    ((Formula.listField name values).map Prod.fst).Sublist [name] := by
  cases values <;> simp [Formula.listField]

theorem lookup_optionField (write : α → Data) (value : Option α) :
    (value.map fun value => (name, write value)).toList.lookup other =
      if other = name then value.map write else none := by
  cases value with
  | none => simp
  | some value =>
      by_cases h : other = name
      · simp [h]
      · simp [List.lookup_cons, h, beq_false_of_ne h]

theorem names_optionField (write : α → Data) (value : Option α) :
    ((value.map fun value => (name, write value)).toList.map Prod.fst).Sublist [name] := by
  cases value <;> simp

end Data

/-! ## The record of an atom -/

namespace Atom

def fieldNames : List String :=
  ["kind", "nucleus", "arguments", "superscript", "subscript", "boundaries", "rows", "span"]

/-- What the record of an atom holds.  Each field stands in it once at most; arguments and rows are
left out when there are none, scripts and boundaries when they are absent. -/
structure WrittenAs (atom : Atom) (data : Data) : Prop where
  names : ∃ fields, data = .record fields ∧ (fields.map Prod.fst).Sublist fieldNames
  kind : data.field? "kind" = some atom.kind.toData
  nucleus : data.field? "nucleus" = some (.text atom.nucleus)
  arguments : data.field? "arguments" =
    if atom.arguments = [] then none else some (.list (atom.arguments.map Formula.toData))
  superscript : data.field? "superscript" = atom.superscript.map Formula.toData
  subscript : data.field? "subscript" = atom.subscript.map Formula.toData
  boundaries : data.field? "boundaries" = atom.boundaries.map Boundaries.toData
  rows : data.field? "rows" =
    if atom.rows = [] then none
    else some (.list (atom.rows.map fun row => .list (row.map Formula.toData)))
  span : data.field? "span" = some atom.span.toData

theorem toData_eq (atom : Atom) :
    atom.toData = .record
      ([("kind", atom.kind.toData), ("nucleus", .text atom.nucleus)] ++
        Formula.listField "arguments" (atom.arguments.map Formula.toData) ++
        (atom.superscript.map fun script => ("superscript", Formula.toData script)).toList ++
        (atom.subscript.map fun script => ("subscript", Formula.toData script)).toList ++
        (atom.boundaries.map fun boundaries => ("boundaries", boundaries.toData)).toList ++
        Formula.listField "rows" (atom.rows.map fun row => .list (row.map Formula.toData)) ++
        [("span", atom.span.toData)]) := by
  cases atom
  simp only [toData, Formula.allData_eq_map, Formula.rowsData_eq_map, Formula.scriptField_eq]

theorem names_toData (atom : Atom) :
    ∃ fields, atom.toData = .record fields ∧ (fields.map Prod.fst).Sublist fieldNames := by
  refine ⟨_, toData_eq atom, ?_⟩
  simp only [List.map_append]
  have harguments := Data.names_listField "arguments" (atom.arguments.map Formula.toData)
  have hsuperscript := Data.names_optionField "superscript" Formula.toData atom.superscript
  have hsubscript := Data.names_optionField "subscript" Formula.toData atom.subscript
  have hboundaries := Data.names_optionField "boundaries" Boundaries.toData atom.boundaries
  have hrows := Data.names_listField "rows"
    (atom.rows.map fun row => .list (row.map Formula.toData))
  exact (((((List.Sublist.refl ["kind", "nucleus"]).append harguments).append
    hsuperscript).append hsubscript).append hboundaries).append hrows |>.append
      (List.Sublist.refl ["span"])

theorem writtenAs_toData (atom : Atom) : atom.WrittenAs atom.toData := by
  refine ⟨names_toData atom, ?_, ?_, ?_, ?_, ?_, ?_, ?_, ?_⟩ <;> rw [toData_eq] <;>
    simp [Data.field?, List.lookup_append, Data.lookup_listField, Data.lookup_optionField,
      List.lookup_cons]

end Atom

/-! ## Reading

Each field is read on top of those behind it, and one that was left out keeps its default. -/

namespace AtomFields

variable {rest : List (String × Data)} {fields : AtomFields}

theorem ofList?_span (span : Span) : ofList? [("span", span.toData)] = some { span } := by
  simp [ofList?, Span.ofData?_toData]

theorem ofList?_rows {rows : List (List Formula)} (h : ofList? rest = some fields)
    (hdefault : fields.rows = [])
    (hrows : Formula.rowsOfList? (Formula.rowsData rows) = some rows) :
    ofList? (Formula.listField "rows" (Formula.rowsData rows) ++ rest) =
      some { fields with rows } := by
  cases rows with
  | nil =>
      have hsame : { fields with rows := [] } = fields := by rw [← hdefault]
      simpa [Formula.rowsData, Formula.listField, hsame] using h
  | cons row rows =>
      rw [Formula.rowsData] at hrows ⊢
      simp [Formula.listField, ofList?, h, Formula.rowsOfData?, hrows]

theorem ofList?_boundaries {boundaries : Option Boundaries} (h : ofList? rest = some fields)
    (hdefault : fields.boundaries = none) :
    ofList? ((boundaries.map fun boundaries => ("boundaries", boundaries.toData)).toList ++ rest) =
      some { fields with boundaries } := by
  cases boundaries with
  | none =>
      have hsame : { fields with boundaries := none } = fields := by rw [← hdefault]
      simpa [hsame] using h
  | some boundaries =>
      have hread : Boundaries.optional? boundaries.toData = some (some boundaries) := rfl
      simp [ofList?, h, hread]

theorem ofList?_scripts {superscript subscript : Option Formula} (h : ofList? rest = some fields)
    (hnone : fields.superscript = none ∧ fields.subscript = none)
    (hsuperscript : ∀ formula ∈ superscript,
      Formula.ofList? (Formula.atomsData formula) = some formula)
    (hsubscript : ∀ formula ∈ subscript,
      Formula.ofList? (Formula.atomsData formula) = some formula) :
    ofList? (Formula.scriptField "superscript" superscript ++
        (Formula.scriptField "subscript" subscript ++ rest)) =
      some { fields with superscript, subscript } := by
  obtain ⟨kind, nucleus, arguments, _, _, boundaries, rows, span⟩ := fields
  obtain ⟨rfl, rfl⟩ := hnone
  cases superscript <;> cases subscript <;>
    simp_all [Formula.scriptField, ofList?, Formula.scriptOfData?]

theorem ofList?_arguments {arguments : List Formula} (h : ofList? rest = some fields)
    (hdefault : fields.arguments = [])
    (harguments : Formula.allOfList? (Formula.allData arguments) = some arguments) :
    ofList? (Formula.listField "arguments" (Formula.allData arguments) ++ rest) =
      some { fields with arguments } := by
  cases arguments with
  | nil =>
      have hsame : { fields with arguments := [] } = fields := by rw [← hdefault]
      simpa [Formula.allData, Formula.listField, hsame] using h
  | cons argument arguments =>
      rw [Formula.allData] at harguments ⊢
      simp [Formula.listField, ofList?, h, Formula.allOfData?, harguments]

theorem ofList?_symbol (kind : AtomKind) (nucleus : String) (h : ofList? rest = some fields) :
    ofList? ([("kind", kind.toData), ("nucleus", .text nucleus)] ++ rest) =
      some { fields with kind := some kind, nucleus := some nucleus } := by
  simp [ofList?, h, AtomKind.ofData?_toData, Data.text?]

end AtomFields

mutual

theorem Atom.ofData?_toData : ∀ atom : Atom, Atom.ofData? atom.toData = some atom
  | ⟨kind, nucleus, arguments, superscript, subscript, boundaries, rows, span⟩ => by
      have hspan := AtomFields.ofList?_span span
      have hrows := AtomFields.ofList?_rows hspan rfl (Formula.rowsOfList?_rowsData rows)
      have hboundaries := @AtomFields.ofList?_boundaries _ _ boundaries hrows rfl
      have hscripts := AtomFields.ofList?_scripts hboundaries ⟨rfl, rfl⟩
        (Formula.ofList?_of_mem_script superscript) (Formula.ofList?_of_mem_script subscript)
      have harguments := AtomFields.ofList?_arguments hscripts rfl
        (Formula.allOfList?_allData arguments)
      have hfields := AtomFields.ofList?_symbol kind nucleus harguments
      simp only [Atom.toData, Atom.ofData?, List.append_assoc, hfields]
      rfl

theorem Formula.ofList?_atomsData : ∀ formula : List Atom,
    Formula.ofList? (Formula.atomsData formula) = some formula
  | [] => by simp [Formula.atomsData, Formula.ofList?]
  | atom :: rest => by
      simp [Formula.atomsData, Formula.ofList?, Atom.ofData?_toData atom,
        Formula.ofList?_atomsData rest]

theorem Formula.ofList?_of_mem_script : ∀ script : Option (List Atom), ∀ formula ∈ script,
    Formula.ofList? (Formula.atomsData formula) = some formula
  | none => nofun
  | some formula => by
      rintro _ ⟨⟩
      exact Formula.ofList?_atomsData formula

theorem Formula.allOfList?_allData : ∀ formulas : List (List Atom),
    Formula.allOfList? (Formula.allData formulas) = some formulas
  | [] => by simp [Formula.allData, Formula.allOfList?]
  | formula :: rest => by
      simp [Formula.allData, Formula.allOfList?, Formula.ofData?,
        Formula.ofList?_atomsData formula, Formula.allOfList?_allData rest]

theorem Formula.rowsOfList?_rowsData : ∀ rows : List (List (List Atom)),
    Formula.rowsOfList? (Formula.rowsData rows) = some rows
  | [] => by simp [Formula.rowsData, Formula.rowsOfList?]
  | row :: rest => by
      simp [Formula.rowsData, Formula.rowsOfList?, Formula.allOfData?,
        Formula.allOfList?_allData row, Formula.rowsOfList?_rowsData rest]

end

theorem Formula.read_back_of_data (formula : Formula) :
    Formula.ofData? formula.toData = some formula ∧
      formula.toData = .list (formula.map Atom.toData) ∧
      ∀ atom : Atom, atom.WrittenAs atom.toData ∧ Atom.ofData? atom.toData = some atom := by
  refine ⟨?_, ?_, fun atom => ⟨atom.writtenAs_toData, Atom.ofData?_toData atom⟩⟩
  · rw [Formula.toData, Formula.ofData?]
    exact Formula.ofList?_atomsData formula
  · rw [Formula.toData, Formula.atomsData_eq_map]

example : Atom.toData
    { kind := .largeOperator true, nucleus := "∑", superscript := some [], rows := [[]] } =
      .record
        [("kind", .record [("large-operator", .record [("limits", .bool true)])]),
          ("nucleus", .text "∑"), ("superscript", .list []), ("rows", .list [.list []]),
          ("span", .record [("start", .integer 0), ("end", .integer 0)])] := by
  rfl

end TexMath
