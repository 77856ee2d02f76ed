/-!
# Dates and times in TOML

A date, a time of day, or both, and with both perhaps the offset from universal time.  The seconds
may be left out.
-/

namespace TexMath.Toml

def readTwo : List Char → Option (Nat × List Char)
  | a :: b :: rest =>
      if a.isDigit && b.isDigit then
        some (10 * (a.toNat - '0'.toNat) + (b.toNat - '0'.toNat), rest)
      else none
  | _ => none

def readMark (mark : Char) : List Char → Option (List Char)
  | c :: rest => if c = mark then some rest else none
  | [] => none

def isLeapYear (year : Nat) : Bool :=
  year % 4 == 0 && (year % 100 != 0 || year % 400 == 0)

def daysIn (year month : Nat) : Nat :=
  if month = 2 then (if isLeapYear year then 29 else 28)
  else if month ∈ [4, 6, 9, 11] then 30
  else 31

def readDate (word : List Char) : Option (List Char) := do
  let (century, rest) ← readTwo word
  let (year, rest) ← readTwo rest
  let (month, rest) ← readTwo (← readMark '-' rest)
  let (day, rest) ← readTwo (← readMark '-' rest)
  let days := daysIn (100 * century + year) month
  if 1 ≤ month ∧ month ≤ 12 ∧ 1 ≤ day ∧ day ≤ days then some rest else none

def readFraction : List Char → Option (List Char)
  | '.' :: digits =>
      if (digits.takeWhile Char.isDigit).isEmpty then none else some (digits.dropWhile Char.isDigit)
  | rest => some rest

def readTime (word : List Char) : Option (List Char) := do
  let (hour, rest) ← readTwo word
  let (minute, rest) ← readTwo (← readMark ':' rest)
  if 24 ≤ hour ∨ 60 ≤ minute then none
  match rest with
  | ':' :: rest =>
      let (second, rest) ← readTwo rest
      if 60 < second then none
      readFraction rest
  | rest => some rest

def readOffset : List Char → Option (List Char)
  | [] => some []
  | c :: rest =>
      if c = 'Z' ∨ c = 'z' then some rest
      else if c = '+' ∨ c = '-' then do
        let (hour, rest) ← readTwo rest
        let (minute, rest) ← readTwo (← readMark ':' rest)
        if 24 ≤ hour ∨ 60 ≤ minute then none
        some rest
      else none

def isDate (word : List Char) : Bool := readDate word == some []

def isMoment (word : List Char) : Bool :=
  let full := do
    match ← readDate word with
    | [] => some []
    | c :: rest => if c = 'T' ∨ c = 't' then readOffset (← readTime rest) else none
  full == some [] || readTime word == some []

end TexMath.Toml
