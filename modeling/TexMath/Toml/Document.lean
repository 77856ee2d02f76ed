import TexMath.Toml.Moment
import TexMath.Toml.Table
import TexMath.Toml.Text

/-!
# TOML documents

`Toml.read?` reads a whole document into a record.
-/

namespace TexMath.Toml

/-! ## What means nothing -/

def skipBlanks (source : List Char) : List Char :=
  source.dropWhile fun c => c == ' ' || c == '\t'

def skipFiller (inComment : Bool) : List Char → Option (List Char)
  | [] => some []
  | '\n' :: rest => skipFiller false rest
  | '\r' :: '\n' :: rest => skipFiller false rest
  | c :: rest =>
      if inComment then (if isPlain c then skipFiller true rest else none)
      else if c = '#' then skipFiller true rest
      else if c = ' ' ∨ c = '\t' then skipFiller false rest
      else some (c :: rest)

def skipLine (inComment : Bool) : List Char → Option (List Char)
  | [] => some []
  | '\n' :: rest => some rest
  | '\r' :: '\n' :: rest => some rest
  | c :: rest =>
      if inComment then (if isPlain c then skipLine true rest else none)
      else if c = '#' then skipLine true rest
      else if c = ' ' ∨ c = '\t' then skipLine false rest
      else none

/-! ## Keys -/

def isBareKey (c : Char) : Bool := c.isAlphanum || c == '_' || c == '-'

def readSimpleKey (source : List Char) : Option (String × List Char) :=
  match source with
  | '"' :: rest => (readBasic rest).map fun (key, rest) => (String.ofList key, rest)
  | '\'' :: rest => (readLiteral rest).map fun (key, rest) => (String.ofList key, rest)
  | _ =>
      let key := source.takeWhile isBareKey
      if key.isEmpty then none else some (String.ofList key, source.dropWhile isBareKey)

def readKey : Nat → List Char → Option ((List String × String) × List Char)
  | 0, _ => none
  | bound + 1, source => do
      let (name, rest) ← readSimpleKey (skipBlanks source)
      match skipBlanks rest with
      | '.' :: rest =>
          let ((path, last), rest) ← readKey bound rest
          pure ((name :: path, last), rest)
      | rest => pure (([], name), rest)

/-! ## Values -/

def isWordCharacter (c : Char) : Bool := isBareKey c || c == '+' || c == '.' || c == ':'

def word? (word : List Char) : Option Data :=
  if word = "true".toList then some (.bool true)
  else if word = "false".toList then some (.bool false)
  else
    match integer? word with
    | some value => some (.integer value)
    | none =>
        if isDecimal word then some (.decimal (String.ofList word))
        else if isMoment word then some (.moment (String.ofList word))
        else none

/-- Reads an unquoted word.  A space may stand between a date and a time of day. -/
def readWord (source : List Char) : Option (Data × List Char) := do
  let word := source.takeWhile isWordCharacter
  let rest := source.dropWhile isWordCharacter
  let timed :=
    match rest with
    | ' ' :: c :: _ => isDate word && c.isDigit
    | _ => false
  if timed then
    let time := rest.tail.takeWhile isWordCharacter
    pure (← word? (word ++ 'T' :: time), rest.tail.dropWhile isWordCharacter)
  else
    pure (← word? word, rest)

section Compound

variable (readValue : List Char → Option (Data × List Char))

def readArray : Nat → List Char → Option (List Data × List Char)
  | 0, _ => none
  | bound + 1, source => do
      match ← skipFiller false source with
      | ']' :: rest => pure ([], rest)
      | rest =>
          let (value, rest) ← readValue rest
          match ← skipFiller false rest with
          | ']' :: rest => pure ([value], rest)
          | ',' :: rest =>
              let (values, rest) ← readArray bound rest
              pure (value :: values, rest)
          | _ => none

def readField (fields : Fields) (source : List Char) : Option (Fields × List Char) := do
  let ((path, name), rest) ← readKey (source.length + 1) source
  match rest with
  | '=' :: rest =>
      let (value, rest) ← readValue (skipBlanks rest)
      pure (← fields.add path name (.leaf value), rest)
  | _ => none

def readInlineTable : Nat → Fields → List Char → Option (Fields × List Char)
  | 0, _, _ => none
  | bound + 1, fields, source => do
      match ← skipFiller false source with
      | '\x7d' :: rest => pure (fields, rest)
      | rest =>
          let (fields, rest) ← readField readValue fields rest
          match ← skipFiller false rest with
          | '\x7d' :: rest => pure (fields, rest)
          | ',' :: rest => readInlineTable bound fields rest
          | _ => none

end Compound

def readValue : Nat → List Char → Option (Data × List Char)
  | depth, source =>
      match source with
      | '"' :: _ | '\'' :: _ => (readText source).map fun (text, rest) => (.text text, rest)
      | '[' :: rest =>
          match depth with
          | 0 => none
          | depth + 1 =>
              (readArray (readValue depth) (rest.length + 1) rest).map fun (values, rest) =>
                (.list values, rest)
      | '\x7b' :: rest =>
          match depth with
          | 0 => none
          | depth + 1 =>
              (readInlineTable (readValue depth) (rest.length + 1) [] rest).map
                fun (fields, rest) => (.record (Fields.toData fields), rest)
      | _ => readWord source

def maxDepth : Nat := 80

/-! ## Lines -/

/-- A document under construction: its fields, and the path to the table that keys are added to. -/
structure Draft where
  fields : Fields := []
  path : List String := []

namespace Draft

def add (draft : Draft) (path : List String) (name : String) (value : Data) : Option Draft := do
  let fields ←
    draft.fields.change .passed (fun _ table => table.add path name (.leaf value)) draft.path .header
  pure { draft with fields }

def readHeader (draft : Draft) (source : List Char) : Option (Draft × List Char) := do
  let ((path, name), rest) ← readKey (source.length + 1) source
  match rest with
  | ']' :: rest =>
      pure ({ fields := ← draft.fields.openTable path name, path := path ++ [name] }, rest)
  | _ => none

def readArrayHeader (draft : Draft) (source : List Char) : Option (Draft × List Char) := do
  let ((path, name), rest) ← readKey (source.length + 1) source
  match rest with
  | ']' :: ']' :: rest =>
      pure ({ fields := ← draft.fields.addTable path name, path := path ++ [name] }, rest)
  | _ => none

def readPair (draft : Draft) (source : List Char) : Option (Draft × List Char) := do
  let ((path, name), rest) ← readKey (source.length + 1) source
  match rest with
  | '=' :: rest =>
      let (value, rest) ← readValue maxDepth (skipBlanks rest)
      pure (← draft.add path name value, rest)
  | _ => none

def readEntry (draft : Draft) (source : List Char) : Option (Draft × List Char) :=
  match source with
  | '[' :: '[' :: rest => draft.readArrayHeader rest
  | '[' :: rest => draft.readHeader rest
  | _ => draft.readPair source

def readLines : Nat → Draft → List Char → Option Draft
  | 0, _, _ => none
  | bound + 1, draft, source => do
      match ← skipFiller false source with
      | [] => pure draft
      | rest =>
          let (draft, rest) ← draft.readEntry rest
          readLines bound draft (← skipLine false rest)

end Draft

def skipMark : List Char → List Char
  | '\ufeff' :: rest => rest
  | source => source

def read? (document : String) : Option Data := do
  let source := skipMark document.toList
  let draft ← Draft.readLines (source.length + 1) {} source
  pure (.record (Fields.toData draft.fields))

end TexMath.Toml
