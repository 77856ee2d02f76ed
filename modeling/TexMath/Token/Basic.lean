import TexMath.ParseError

/-!
# Tokens

The words of TeX text.  Scanning a source gives a list of items: a lexeme, which is a token with
the text it covers, or the error of text that forms no token.
-/

namespace TexMath

inductive Token where
  | character (c : Char)
  | command (name : String)
  | environmentBegin (environment : Environment)
  | environmentEnd (environment : Environment)
  | columnMark
  | bracketOpen
  | bracketClose
  | braceOpen
  | braceClose
  | superscriptMark
  | subscriptMark
  | blank
  | comment
  | sourceEnd
deriving DecidableEq, Repr

namespace Token

def isTrivia : Token → Bool
  | blank | comment => true
  | _ => false

def script? : Token → Option Script
  | superscriptMark => some .superscript
  | subscriptMark => some .subscript
  | _ => none

end Token

structure Lexeme where
  token : Token
  span : Span
  text : String
deriving DecidableEq, Repr

inductive Item where
  | lexeme (lexeme : Lexeme)
  | fault (error : ParseError)
deriving DecidableEq, Repr

def Item.isSignificant : Item → Bool
  | lexeme l => !l.token.isTrivia
  | fault _ => true

end TexMath
