/-!
# Numbers in TOML

Integers in base ten, sixteen, eight and two, and decimals.  Underscores may stand between digits.
An integer has to fit into 64 bits, signed or unsigned, and a decimal into a double.
-/

namespace TexMath.Toml

def groupedDigits? (isDigit : Char → Bool) : List Char → Option (List Char)
  | [] => none
  | [c] => if isDigit c then some [c] else none
  | c :: '_' :: d :: rest =>
      if isDigit c then (groupedDigits? isDigit (d :: rest)).map (c :: ·) else none
  | c :: rest => if isDigit c then (groupedDigits? isDigit rest).map (c :: ·) else none

def digitValue (c : Char) : Nat :=
  if c.isDigit then c.toNat - '0'.toNat
  else if 'a' ≤ c ∧ c ≤ 'f' then c.toNat - 'a'.toNat + 10
  else if 'A' ≤ c ∧ c ≤ 'F' then c.toNat - 'A'.toNat + 10
  else 0

def isHexDigit (c : Char) : Bool :=
  c.isDigit || decide ('a' ≤ c ∧ c ≤ 'f') || decide ('A' ≤ c ∧ c ≤ 'F')

def isOctalDigit (c : Char) : Bool := decide ('0' ≤ c ∧ c ≤ '7')

def isBinaryDigit (c : Char) : Bool := c == '0' || c == '1'

def valueOf (base : Nat) (digits : List Char) : Nat :=
  digits.foldl (fun value c => base * value + digitValue c) 0

def splitSign : List Char → Bool × List Char
  | '-' :: rest => (true, rest)
  | '+' :: rest => (false, rest)
  | rest => (false, rest)

def wholeDigits? (word : List Char) : Option (List Char) := do
  let digits ← groupedDigits? Char.isDigit word
  if digits.head? = some '0' ∧ word ≠ ['0'] then none else some digits

/-- Holds of the integers that fit into 64 bits. -/
def fitsWord (n : Int) : Bool := -9223372036854775808 ≤ n && n ≤ 18446744073709551615

def integer? (word : List Char) : Option Int := do
  let value : Int ←
    match word with
    | '0' :: 'x' :: digits => ((groupedDigits? isHexDigit digits).map (valueOf 16)).map Int.ofNat
    | '0' :: 'o' :: digits => ((groupedDigits? isOctalDigit digits).map (valueOf 8)).map Int.ofNat
    | '0' :: 'b' :: digits => ((groupedDigits? isBinaryDigit digits).map (valueOf 2)).map Int.ofNat
    | _ =>
        let (negative, rest) := splitSign word
        (wholeDigits? rest).map fun digits =>
          if negative then -(valueOf 10 digits : Int) else (valueOf 10 digits : Int)
  if fitsWord value then some value else none

/-- The first number beyond those that round to a double. -/
def doubleLimit : Nat := Nat.pow 2 1024 - Nat.pow 2 970

def fitsDouble (digits : List Char) (scale : Int) : Bool :=
  let size : Int := (digits.dropWhile (· == '0')).length + scale
  let mantissa := valueOf 10 digits
  if mantissa = 0 ∨ size < 300 then true
  else if 310 < size then false
  else if 0 ≤ scale then mantissa * Nat.pow 10 scale.toNat < doubleLimit
  else mantissa < doubleLimit * Nat.pow 10 (-scale).toNat

/-- Whether the word is a decimal: digits with a fraction or an exponent or both, an infinity, or
no number at all. -/
def isDecimal (word : List Char) : Bool :=
  let (_, rest) := splitSign word
  if rest = "inf".toList ∨ rest = "nan".toList then true
  else
    let isExponentMark (c : Char) : Bool := c == 'e' || c == 'E'
    let mantissa := rest.takeWhile (!isExponentMark ·)
    let exponent :=
      match rest.dropWhile (!isExponentMark ·) with
      | [] => some none
      | _ :: power =>
          let (negative, digits) := splitSign power
          (groupedDigits? Char.isDigit digits).map fun digits =>
            some (if negative then -(valueOf 10 digits : Int) else (valueOf 10 digits : Int))
    let fraction :=
      match mantissa.dropWhile (· != '.') with
      | [] => some none
      | _ :: digits => (groupedDigits? Char.isDigit digits).map some
    match wholeDigits? (mantissa.takeWhile (· != '.')), fraction, exponent with
    | some _, some none, some none => false
    | some whole, some fraction, some exponent =>
        let digits := fraction.getD []
        fitsDouble (whole ++ digits) (exponent.getD 0 - digits.length)
    | _, _, _ => false

end TexMath.Toml
