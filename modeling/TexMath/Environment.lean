/-!
# Table environments

The environments whose body is a grid of cells.
-/

namespace TexMath

inductive Environment where
  | matrix
  | parenMatrix
  | bracketMatrix
  | braceMatrix
  | barMatrix
  | doubleBarMatrix
  | smallMatrix
  | cases
  | aligned
  | gathered
deriving DecidableEq, Repr

namespace Environment

def name : Environment → String
  | matrix => "matrix"
  | parenMatrix => "pmatrix"
  | bracketMatrix => "bmatrix"
  | braceMatrix => "Bmatrix"
  | barMatrix => "vmatrix"
  | doubleBarMatrix => "Vmatrix"
  | smallMatrix => "smallmatrix"
  | cases => "cases"
  | aligned => "aligned"
  | gathered => "gathered"

def all : List Environment :=
  [matrix, parenMatrix, bracketMatrix, braceMatrix, barMatrix, doubleBarMatrix, smallMatrix,
    cases, aligned, gathered]

def ofName? (name : String) : Option Environment :=
  all.find? fun environment => environment.name == name

def allowsColumns (environment : Environment) : Bool := environment != gathered

theorem mem_all (environment : Environment) : environment ∈ all := by
  cases environment <;> decide

theorem ofName?_name (environment : Environment) : ofName? environment.name = some environment := by
  cases environment <;> rfl

theorem name_of_ofName? {name : String} {environment : Environment}
    (h : ofName? name = some environment) : environment.name = name := by
  simpa using List.find?_some h

end Environment

end TexMath
