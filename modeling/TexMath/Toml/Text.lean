import TexMath.Toml.Number

/-!
# Text in TOML

Text in double quotes, with escapes, and in single quotes, without.  Three quotes in a row begin
text that may hold line ends.
-/

namespace TexMath.Toml

def isPlain (c : Char) : Bool := c == '\t' || (0x20 ≤ c.toNat && c.toNat != 0x7F)

def escapes : List (Char × Char) :=
  [('b', '\x08'), ('t', '\t'), ('n', '\n'), ('f', '\x0c'), ('r', '\r'), ('e', '\x1b'),
    ('"', '"'), ('\\', '\\')]

def scalar? (digits : List Char) : Option Char :=
  if digits.all isHexDigit ∧ (valueOf 16 digits).isValidChar then
    some (Char.ofNat (valueOf 16 digits))
  else none

def consText (c : Char) (read : List Char × List Char) : List Char × List Char :=
  (c :: read.1, read.2)

def readBasic : List Char → Option (List Char × List Char)
  | [] => none
  | '"' :: rest => some ([], rest)
  | '\\' :: 'x' :: a :: b :: rest => do
      let c ← scalar? [a, b]
      (readBasic rest).map (consText c)
  | '\\' :: 'u' :: a :: b :: c :: d :: rest => do
      let c ← scalar? [a, b, c, d]
      (readBasic rest).map (consText c)
  | '\\' :: 'U' :: a :: b :: c :: d :: e :: f :: g :: h :: rest => do
      let c ← scalar? [a, b, c, d, e, f, g, h]
      (readBasic rest).map (consText c)
  | '\\' :: c :: rest => do
      let c ← escapes.lookup c
      (readBasic rest).map (consText c)
  | c :: rest => if isPlain c && c != '\\' then (readBasic rest).map (consText c) else none

def readLiteral : List Char → Option (List Char × List Char)
  | [] => none
  | '\'' :: rest => some ([], rest)
  | c :: rest => if isPlain c then (readLiteral rest).map (consText c) else none

def endsLineAfterBlanks (rest : List Char) : Bool :=
  match rest.dropWhile fun c => c == ' ' || c == '\t' with
  | '\n' :: _ => true
  | '\r' :: '\n' :: _ => true
  | _ => false

/-- Reads text up to three closing double quotes; one or two more belong to the text.  A backslash
at the end of a line joins it to the next line that is not blank: white space is left out while
`joining`. -/
def readLongBasic (joining : Bool) : List Char → Option (List Char × List Char)
  | [] => none
  | '"' :: '"' :: '"' :: '"' :: '"' :: rest => some (['"', '"'], rest)
  | '"' :: '"' :: '"' :: '"' :: rest => some (['"'], rest)
  | '"' :: '"' :: '"' :: rest => some ([], rest)
  | '\\' :: 'x' :: a :: b :: rest => do
      let c ← scalar? [a, b]
      (readLongBasic false rest).map (consText c)
  | '\\' :: 'u' :: a :: b :: c :: d :: rest => do
      let c ← scalar? [a, b, c, d]
      (readLongBasic false rest).map (consText c)
  | '\\' :: 'U' :: a :: b :: c :: d :: e :: f :: g :: h :: rest => do
      let c ← scalar? [a, b, c, d, e, f, g, h]
      (readLongBasic false rest).map (consText c)
  | '\\' :: c :: rest =>
      if endsLineAfterBlanks (c :: rest) then readLongBasic true (c :: rest)
      else do
        let c ← escapes.lookup c
        (readLongBasic false rest).map (consText c)
  | '\r' :: '\n' :: rest =>
      if joining then readLongBasic true rest
      else (readLongBasic false rest).map (consText '\r' ∘ consText '\n')
  | c :: rest =>
      if joining && (c == ' ' || c == '\t' || c == '\n') then readLongBasic true rest
      else if (isPlain c && c != '\\') || c == '\n' then (readLongBasic false rest).map (consText c)
      else none

def readLongLiteral : List Char → Option (List Char × List Char)
  | [] => none
  | '\'' :: '\'' :: '\'' :: '\'' :: '\'' :: rest => some (['\'', '\''], rest)
  | '\'' :: '\'' :: '\'' :: '\'' :: rest => some (['\''], rest)
  | '\'' :: '\'' :: '\'' :: rest => some ([], rest)
  | '\r' :: '\n' :: rest => (readLongLiteral rest).map (consText '\r' ∘ consText '\n')
  | c :: rest =>
      if isPlain c || c == '\n' then (readLongLiteral rest).map (consText c) else none

def skipFirstLineEnd : List Char → List Char
  | '\n' :: rest => rest
  | '\r' :: '\n' :: rest => rest
  | rest => rest

def readText (source : List Char) : Option (String × List Char) :=
  let read :=
    match source with
    | '"' :: '"' :: '"' :: rest => readLongBasic false (skipFirstLineEnd rest)
    | '\'' :: '\'' :: '\'' :: rest => readLongLiteral (skipFirstLineEnd rest)
    | '"' :: rest => readBasic rest
    | '\'' :: rest => readLiteral rest
    | _ => none
  read.map fun (text, rest) => (String.ofList text, rest)

end TexMath.Toml
