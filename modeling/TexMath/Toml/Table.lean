import TexMath.Data

/-!
# Tables in TOML

A document is built key by key.  How a table came about decides what may still be added to it, so
the tables under construction carry their origin.
-/

namespace TexMath.Toml

inductive Origin where
  | passed
  | header
  | dotted
deriving DecidableEq, Repr

inductive Node where
  | leaf (value : Data)
  | table (origin : Origin) (fields : List (String × Node))
  /-- The tables of an array, the last of which is the one that is added to. -/
  | tables (items : List (List (String × Node)))

abbrev Fields := List (String × Node)

namespace Fields

def put (name : String) (node : Node) : Fields → Fields
  | [] => [(name, node)]
  | (other, value) :: rest =>
      if other = name then (name, node) :: rest else (other, value) :: put name node rest

def changeLast (edit : Fields → Option Fields) : List Fields → Option (List Fields)
  | [] => none
  | [last] => (edit last).map fun last => [last]
  | first :: rest => (changeLast edit rest).map (first :: ·)

/-- Changes the table at the end of a path, given how the table has come about.  Tables that are
missing on the way come about through `via`.  Dotted keys do not go through a table that a header
names. -/
def change (via : Origin) (edit : Origin → Fields → Option Fields) :
    List String → Origin → Fields → Option Fields
  | [], origin, fields => edit origin fields
  | name :: path, _, fields =>
      match fields.lookup name with
      | none => do
          let inner ← change via edit path via []
          pure (fields.put name (.table via inner))
      | some (.table origin inner) =>
          if via = .dotted ∧ origin = .header then none
          else do
            let inner ← change via edit path origin inner
            pure (fields.put name (.table origin inner))
      | some (.tables items) => do
          let items ← changeLast (change via edit path .header) items
          pure (fields.put name (.tables items))
      | some (.leaf _) => none

def openTable (path : List String) (name : String) (fields : Fields) : Option Fields :=
  fields.change .passed (fun _ fields =>
    match fields.lookup name with
    | none => some (fields.put name (.table .header []))
    | some (.table .passed inner) => some (fields.put name (.table .header inner))
    | some _ => none) path .header

def addTable (path : List String) (name : String) (fields : Fields) : Option Fields :=
  fields.change .passed (fun _ fields =>
    match fields.lookup name with
    | none => some (fields.put name (.tables [[]]))
    | some (.tables items) => some (fields.put name (.tables (items ++ [[]])))
    | some _ => none) path .header

/-- Adds a value under a dotted key.  A key is given once, and a table is added to either by
dotted keys or in its own right. -/
def add (path : List String) (name : String) (node : Node) (fields : Fields) : Option Fields :=
  fields.change .dotted (fun origin fields =>
    if !path.isEmpty && origin != .dotted then none
    else
      match fields.lookup name with
      | none => some (fields.put name node)
      | some _ => none) path .header

end Fields

/-! ## Finished tables -/

mutual

def Node.toData : Node → Data
  | .leaf value => value
  | .table _ fields => .record (Fields.toData fields)
  | .tables items => .list (Fields.allToData items)

def Fields.toData : List (String × Node) → List (String × Data)
  | [] => []
  | (name, node) :: rest => (name, Node.toData node) :: Fields.toData rest

def Fields.allToData : List (List (String × Node)) → List Data
  | [] => []
  | fields :: rest => .record (Fields.toData fields) :: Fields.allToData rest

end

end TexMath.Toml
