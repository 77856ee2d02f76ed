import TexMath.Symbol.Command
import Mathlib.Data.List.Sort

/-!
# Facts about the command table

No two entries of the table share a name and no alternative name hides one, so that each canonical
name is found as what it stands for.  The kind of a template fixes its arguments.
-/

namespace TexMath

/-- Holds of a template whose kind fixes its arguments: one for each that the kind needs, and an
optional one for a root.  Groups, tables and errors are not made by templates. -/
def Template.isRegular (template : Template) : Bool :=
  template.arguments == template.kind.argumentRange.1 &&
    template.optionalArgument == (template.kind == .radical) &&
    template.kind != .inner && template.kind != .table && template.kind != .error

namespace Command

theorem exists_mem_table_of_find? {name : String} {command : Command}
    (h : find? name = some command) : ∃ canonical, (canonical, command) ∈ table := by
  obtain ⟨before, after, htable, -⟩ := List.lookup_eq_some_iff.mp h
  exact ⟨canonicalName name, by rw [htable]; simp⟩

/-- The bytes of a name as one number; numbers are quicker to compare than names. -/
def nameNumber (name : String) : Nat :=
  name.toByteArray.data.toList.foldl (fun number byte => 256 * number + byte.toNat) 1

def names : List String := "begin" :: "end" :: (table.map Prod.fst ++ aliases.map Prod.fst)

theorem nodup_names : names.Nodup := by
  have hsorted : ((names.map nameNumber).insertionSort (· ≤ ·)).IsChain (· < ·) := by
    decide +kernel
  have hdistinct : ((names.map nameNumber).insertionSort (· ≤ ·)).Nodup :=
    (List.isChain_iff_pairwise.mp hsorted).imp Nat.ne_of_lt
  exact .of_map nameNumber ((List.perm_insertionSort _ _).nodup_iff.mp hdistinct)

theorem canonicalName_of_notMem {name : String} (h : name ∉ aliases.map Prod.fst) :
    canonicalName name = name := by
  have hnone : aliases.lookup name = none :=
    List.lookup_eq_none_iff.mpr fun entry hentry => bne_iff_ne.mpr fun heq =>
      h (heq ▸ List.mem_map_of_mem hentry)
  rw [canonicalName, hnone, Option.getD_none]

theorem find?_eq_none_of_notMem {name : String}
    (h : name ∉ table.map Prod.fst ++ aliases.map Prod.fst) : find? name = none := by
  rw [List.mem_append, not_or] at h
  rw [find?, canonicalName_of_notMem h.2, List.lookup_eq_none_iff]
  exact fun entry hentry => bne_iff_ne.mpr fun heq => h.1 (heq ▸ List.mem_map_of_mem hentry)

theorem find?_begin : find? "begin" = none := by
  have hbegin := (List.nodup_cons.mp nodup_names).1
  exact find?_eq_none_of_notMem fun hmem => hbegin (List.mem_cons_of_mem _ hmem)

theorem find?_end : find? "end" = none :=
  find?_eq_none_of_notMem (List.nodup_cons.mp (List.nodup_cons.mp nodup_names).2).1

theorem find?_of_mem_table : ∀ entry ∈ table, find? entry.1 = some entry.2 := by
  intro entry hentry
  have hnames := (List.nodup_cons.mp (List.nodup_cons.mp nodup_names).2).2
  obtain ⟨htable, -, hdisjoint⟩ := List.nodup_append.mp hnames
  have hcanonical : canonicalName entry.1 = entry.1 :=
    canonicalName_of_notMem fun hmem => hdisjoint _ (List.mem_map_of_mem hentry) _ hmem rfl
  obtain ⟨before, after, hsplit⟩ := List.append_of_mem hentry
  rw [find?, hcanonical, List.lookup_eq_some_iff]
  refine ⟨before, after, hsplit, fun other hother => bne_iff_ne.mpr ?_⟩
  rw [hsplit, List.map_append, List.map_cons] at htable
  exact ((List.nodup_append.mp htable).2.2 _ (List.mem_map_of_mem hother) _
    List.mem_cons_self).symm

def isRegular : Command → Bool
  | atom template => template.isRegular
  | _ => true

theorem isRegular_of_mem_table : ∀ entry ∈ table, entry.2.isRegular = true := by
  decide +kernel

theorem isRegular_of_find? {name : String} {template : Template}
    (h : find? name = some (.atom template)) : template.isRegular = true := by
  obtain ⟨canonical, hmem⟩ := exists_mem_table_of_find? h
  exact isRegular_of_mem_table _ hmem

theorem arguments_of_find? {name : String} {template : Template}
    (h : find? name = some (.atom template)) :
    template.arguments = template.kind.argumentRange.1 := by
  have regular := isRegular_of_find? h
  simp only [Template.isRegular, Bool.and_eq_true, beq_iff_eq] at regular
  exact regular.1.1.1.1

theorem optionalArgument_of_find? {name : String} {template : Template}
    (h : find? name = some (.atom template)) :
    template.optionalArgument = true ↔ template.kind = .radical := by
  have regular := isRegular_of_find? h
  simp only [Template.isRegular, Bool.and_eq_true, beq_iff_eq] at regular
  rw [regular.1.1.1.2, beq_iff_eq]

theorem kind_ne_of_find? {name : String} {template : Template}
    (h : find? name = some (.atom template)) :
    template.kind ≠ .inner ∧ template.kind ≠ .table ∧ template.kind ≠ .error := by
  have regular := isRegular_of_find? h
  simp only [Template.isRegular, Bool.and_eq_true, bne_iff_ne] at regular
  exact ⟨regular.1.1.2, regular.1.2, regular.2⟩

theorem arguments_le_of_find? {name : String} {template : Template}
    (h : find? name = some (.atom template)) :
    template.arguments + (if template.optionalArgument then 1 else 0) ≤
      template.kind.argumentRange.2 := by
  rw [arguments_of_find? h]
  split
  · rename_i hoptional
    rw [(optionalArgument_of_find? h).mp hoptional]
    decide
  · cases template.kind <;> simp [AtomKind.argumentRange]

/-! ## Single commands -/

theorem find?_of_mem {name : String} {command : Command} (h : (name, command) ∈ table) :
    find? name = some command :=
  find?_of_mem_table (name, command) h

theorem find?_of_directive {name : String} {command : Command}
    (h : (name, command) ∈ directives) : find? name = some command :=
  find?_of_mem (List.mem_append_right _ h)

theorem find?_left : find? "left" = some .left := find?_of_directive (by simp [directives])

theorem find?_right : find? "right" = some .right := find?_of_directive (by simp [directives])

theorem find?_newRow : find? "\\" = some .newRow := find?_of_directive (by simp [directives])

theorem find?_limits : find? "limits" = some (.limits true) :=
  find?_of_directive (by simp [directives])

theorem find?_nolimits : find? "nolimits" = some (.limits false) :=
  find?_of_directive (by simp [directives])

theorem find?_rbrack : find? "rbrack" = some (.atom { kind := .closing, nucleus := "]" }) := by
  have hclosing : ("rbrack", .atom { kind := .closing, nucleus := "]" }) ∈
      symbols .closing closings := by
    simp [symbols, closings]
  exact find?_of_mem (by simp [table, hclosing])

theorem find?_square : find? "square" = some (.atom { kind := .placeholder, nucleus := "□" }) :=
  find?_of_mem (by simp [table, symbols])

theorem find?_frac : find? "frac" = some (.atom ⟨.fraction true, "", 2, false⟩) :=
  find?_of_mem (by simp [table, structures])

theorem find?_sqrt : find? "sqrt" = some (.atom ⟨.radical, "√", 1, true⟩) :=
  find?_of_mem (by simp [table, structures])

/-! ## Directives -/

def makesAtom : Command → Bool
  | atom _ => true
  | _ => false

theorem makesAtom_or_mem_directives :
    ∀ entry ∈ table, entry.2.makesAtom = true ∨ entry ∈ directives := by
  decide +kernel

theorem canonical_notMem_directives : ∀ entry ∈ aliases, entry.2 ∉ directives.map Prod.fst := by
  decide +kernel

theorem mem_directives_of_find? {name : String} {command : Command}
    (h : find? name = some command) (hatom : command.makesAtom = false) :
    (name, command) ∈ directives := by
  obtain ⟨before, after, htable, -⟩ := List.lookup_eq_some_iff.mp h
  have hmem : (canonicalName name, command) ∈ directives :=
    (makesAtom_or_mem_directives _ (htable ▸ by simp)).resolve_left (by simp [hatom])
  cases halias : aliases.lookup name with
  | none => rwa [canonicalName, halias] at hmem
  | some canonical =>
      obtain ⟨front, back, haliases, -⟩ := List.lookup_eq_some_iff.mp halias
      rw [canonicalName, halias] at hmem
      exact absurd (List.mem_map_of_mem hmem)
        (canonical_notMem_directives (name, canonical) (haliases ▸ by simp))

theorem eq_left_of_find? {name : String} (h : find? name = some .left) : name = "left" := by
  simpa [directives] using mem_directives_of_find? h rfl

theorem eq_right_of_find? {name : String} (h : find? name = some .right) : name = "right" := by
  simpa [directives] using mem_directives_of_find? h rfl

theorem eq_newRow_of_find? {name : String} (h : find? name = some .newRow) : name = "\\" := by
  simpa [directives] using mem_directives_of_find? h rfl

theorem eq_limits_of_find? {name : String} {value : Bool} (h : find? name = some (.limits value)) :
    name = "limits" ∨ name = "nolimits" := by
  have hmem := mem_directives_of_find? h rfl
  simp only [directives, List.mem_cons, Prod.mk.injEq] at hmem
  rcases hmem with ⟨hname, -⟩ | ⟨hname, -⟩ | ⟨-, hcommand⟩ | ⟨-, hcommand⟩ | hrow
  · exact .inl hname
  · exact .inr hname
  · cases hcommand
  · cases hcommand
  · simp at hrow

end Command

end TexMath
