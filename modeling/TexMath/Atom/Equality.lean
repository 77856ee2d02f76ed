import TexMath.Atom.Basic

/-!
# Equality of formulas

`Atom.same` decides equality, spans included.  `Atom.erase` forgets every span at every depth, and
two formulas are alike when they are the same after that.
-/

namespace TexMath

/-! ## Deciding equality -/

mutual

def Atom.same : Atom → Atom → Bool
  | ⟨kind, nucleus, arguments, superscript, subscript, boundaries, rows, span⟩,
    ⟨kind', nucleus', arguments', superscript', subscript', boundaries', rows', span'⟩ =>
      kind == kind' && nucleus == nucleus' && Formula.sameAll arguments arguments' &&
        Formula.sameScript superscript superscript' && Formula.sameScript subscript subscript' &&
        boundaries == boundaries' && Formula.sameRows rows rows' && span == span'

def Formula.same : List Atom → List Atom → Bool
  | [], [] => true
  | atom :: rest, atom' :: rest' => Atom.same atom atom' && Formula.same rest rest'
  | [], _ :: _ => false
  | _ :: _, [] => false

def Formula.sameAll : List (List Atom) → List (List Atom) → Bool
  | [], [] => true
  | formula :: rest, formula' :: rest' => Formula.same formula formula' && Formula.sameAll rest rest'
  | [], _ :: _ => false
  | _ :: _, [] => false

def Formula.sameScript : Option (List Atom) → Option (List Atom) → Bool
  | none, none => true
  | some formula, some formula' => Formula.same formula formula'
  | none, some _ => false
  | some _, none => false

def Formula.sameRows : List (List (List Atom)) → List (List (List Atom)) → Bool
  | [], [] => true
  | row :: rest, row' :: rest' => Formula.sameAll row row' && Formula.sameRows rest rest'
  | [], _ :: _ => false
  | _ :: _, [] => false

end

mutual

theorem Atom.same_iff : ∀ a b : Atom, Atom.same a b = true ↔ a = b
  | ⟨_, _, arguments, superscript, subscript, _, rows, _⟩,
    ⟨_, _, arguments', superscript', subscript', _, rows', _⟩ => by
      simp only [Atom.same, Bool.and_eq_true, beq_iff_eq, Formula.sameAll_iff arguments arguments',
        Formula.sameScript_iff superscript superscript', Formula.sameScript_iff subscript subscript',
        Formula.sameRows_iff rows rows', Atom.mk.injEq, and_assoc]

theorem Formula.same_iff : ∀ a b : List Atom, Formula.same a b = true ↔ a = b
  | [], [] => by simp [Formula.same]
  | atom :: rest, atom' :: rest' => by
      simp [Formula.same, Atom.same_iff atom atom', Formula.same_iff rest rest']
  | [], _ :: _ => by simp [Formula.same]
  | _ :: _, [] => by simp [Formula.same]

theorem Formula.sameAll_iff : ∀ a b : List (List Atom), Formula.sameAll a b = true ↔ a = b
  | [], [] => by simp [Formula.sameAll]
  | formula :: rest, formula' :: rest' => by
      simp [Formula.sameAll, Formula.same_iff formula formula', Formula.sameAll_iff rest rest']
  | [], _ :: _ => by simp [Formula.sameAll]
  | _ :: _, [] => by simp [Formula.sameAll]

theorem Formula.sameScript_iff :
    ∀ a b : Option (List Atom), Formula.sameScript a b = true ↔ a = b
  | none, none => by simp [Formula.sameScript]
  | some formula, some formula' => by
      simp [Formula.sameScript, Formula.same_iff formula formula']
  | none, some _ => by simp [Formula.sameScript]
  | some _, none => by simp [Formula.sameScript]

theorem Formula.sameRows_iff :
    ∀ a b : List (List (List Atom)), Formula.sameRows a b = true ↔ a = b
  | [], [] => by simp [Formula.sameRows]
  | row :: rest, row' :: rest' => by
      simp [Formula.sameRows, Formula.sameAll_iff row row', Formula.sameRows_iff rest rest']
  | [], _ :: _ => by simp [Formula.sameRows]
  | _ :: _, [] => by simp [Formula.sameRows]

end

instance : DecidableEq Atom := fun a b =>
  decidable_of_iff (Atom.same a b = true) (Atom.same_iff a b)

/-! ## Equality without spans -/

mutual

def Atom.erase : Atom → Atom
  | ⟨kind, nucleus, arguments, superscript, subscript, boundaries, rows, _⟩ =>
      { kind, nucleus, boundaries
        arguments := Formula.eraseAll arguments
        superscript := Formula.eraseScript superscript
        subscript := Formula.eraseScript subscript
        rows := Formula.eraseRows rows }

def Formula.erase : List Atom → List Atom
  | [] => []
  | atom :: rest => Atom.erase atom :: Formula.erase rest

def Formula.eraseAll : List (List Atom) → List (List Atom)
  | [] => []
  | formula :: rest => Formula.erase formula :: Formula.eraseAll rest

def Formula.eraseScript : Option (List Atom) → Option (List Atom)
  | none => none
  | some formula => some (Formula.erase formula)

def Formula.eraseRows : List (List (List Atom)) → List (List (List Atom))
  | [] => []
  | row :: rest => Formula.eraseAll row :: Formula.eraseRows rest

end

/-- Equality that ignores spans at every depth. -/
def Formula.alike (a b : Formula) : Bool := Formula.erase a == Formula.erase b

theorem Formula.alike_iff (a b : Formula) :
    Formula.alike a b = true ↔ Formula.erase a = Formula.erase b := by
  simp [Formula.alike]

end TexMath
