/-!
# Plain data

The values of data files: what can be written in them without knowing what it is for.
-/

namespace TexMath

inductive Data where
  | null
  | bool (value : Bool)
  | integer (value : Int)
  /-- A number that is not written as an integer. -/
  | decimal (digits : String)
  | moment (digits : String)
  | text (value : String)
  | list (values : List Data)
  | record (fields : List (String × Data))
deriving Repr, Inhabited

namespace Data

def bool? : Data → Option Bool
  | bool value => some value
  | _ => none

def text? : Data → Option String
  | text value => some value
  | _ => none

def nat? : Data → Option Nat
  | integer (.ofNat n) => some n
  | _ => none

def field? (name : String) : Data → Option Data
  | record fields => fields.lookup name
  | _ => none

end Data

end TexMath
