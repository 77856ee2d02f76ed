import TexMath.Text.Extender
import TexMath.Text.Printable

/-!
# Quoted text

Text in double quotes, where each character that would not show as itself is escaped.
-/

namespace TexMath.Text

def hexadecimal (n : Nat) : String := String.ofList (Nat.toDigits 16 n)

def shortEscapes : List (Char × String) :=
  [('\x00', "\\0"), ('\t', "\\t"), ('\r', "\\r"), ('\n', "\\n"), ('"', "\\\""), ('\\', "\\\\")]

def escape (c : Char) : String :=
  match shortEscapes.lookup c with
  | some short => short
  | none =>
      if isExtender c || !isPrintable c then "\\u\x7b" ++ hexadecimal c.toNat ++ "\x7d"
      else String.singleton c

def quoted (text : String) : String :=
  "\"" ++ String.join (text.toList.map escape) ++ "\""

end TexMath.Text
