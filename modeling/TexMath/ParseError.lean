import TexMath.Atom.Basic
import TexMath.Environment

/-!
# Errors in a source

An error has a cause and the span of the text at fault.  `Cause.message` words the cause for the
reader of the whole report, `Cause.label` for the place it points at.
-/

namespace TexMath

inductive Fence where
  | left
  | right
deriving DecidableEq, Repr

def Fence.command : Fence → String
  | .left => "\\left"
  | .right => "\\right"

inductive Separator where
  | column
  | row
deriving DecidableEq, Repr

def Separator.mark : Separator → String
  | .column => "&"
  | .row => "\\\\"

inductive Cause where
  | unknownCommand (name : String)
  /-- An argument is missing after what is written as `command`. -/
  | missingArgument (command : String)
  | duplicateScript (script : Script)
  | scriptNotAllowed (script : Script)
  | unbalancedBraces
  | unbalancedBrackets
  | unexpectedCharacter (c : Char)
  | nestingTooDeep
  | emptyInput
  /-- No large operator without scripts stands before a limits command. -/
  | invalidLimits
  | missingDelimiter (fence : Fence)
  | invalidDelimiter (text : String)
  | missingRight
  | missingLeft
  | unknownEnvironment (name : String)
  | mismatchedEnvironment (expected found : Environment)
  | missingEnd (environment : Environment)
  | missingBegin (environment : Environment)
  | misplacedSeparator (separator : Separator)
deriving DecidableEq, Repr

namespace Cause

def endOf (environment : Environment) : String := "\\end\x7b" ++ environment.name ++ "\x7d"

def inQuotes (text : String) : String := "\"" ++ text ++ "\""

def message : Cause → String
  | unknownCommand name => "Unknown command " ++ inQuotes ("\\" ++ name) ++ "."
  | missingArgument command => "Missing argument for " ++ inQuotes command ++ "."
  | duplicateScript script => "Duplicate " ++ inQuotes script.mark ++ " on the same atom."
  | scriptNotAllowed script =>
      inQuotes script.mark ++ " cannot be applied to a space or style command."
  | unbalancedBraces => "Unbalanced braces."
  | unbalancedBrackets => "Expected \"]\" to close the optional argument, but not found."
  | unexpectedCharacter c => "Unexpected character '" ++ String.singleton c ++ "'."
  | nestingTooDeep => "Nesting too deep. Please simplify your equation."
  | emptyInput => "Empty input."
  | invalidLimits => "\\limits and \\nolimits may only follow a large operator."
  | missingDelimiter fence =>
      "There must be a delimiter after " ++ inQuotes fence.command ++ ", but not found."
  | invalidDelimiter text => "Invalid delimiter " ++ inQuotes text ++ "."
  | missingRight => "Missing \\right."
  | missingLeft => "Missing \\left."
  | unknownEnvironment name => "Unknown environment " ++ inQuotes name ++ "."
  | mismatchedEnvironment expected found =>
      "Expected " ++ inQuotes (endOf expected) ++ ", but got " ++ inQuotes (endOf found) ++ "."
  | missingEnd environment => "Expected " ++ inQuotes (endOf environment) ++ ", but not found."
  | missingBegin environment =>
      "Got " ++ inQuotes (endOf environment) ++ " without a matching \\begin."
  | misplacedSeparator separator =>
      inQuotes separator.mark ++ " may only appear in a table environment."

def label : Cause → String
  | unknownCommand _ => "unknown command"
  | missingArgument _ => "expected an argument here"
  | duplicateScript _ => "duplicate"
  | scriptNotAllowed _ => "not allowed here"
  | unbalancedBraces => "unbalanced"
  | unbalancedBrackets => "expected \"]\" to close this"
  | unexpectedCharacter _ => "unexpected character"
  | nestingTooDeep => "limit exceeded"
  | emptyInput => "empty"
  | invalidLimits => "no large operator before this"
  | missingDelimiter fence => "expected a delimiter after " ++ inQuotes fence.command
  | invalidDelimiter _ => "invalid delimiter"
  | missingRight => "expected \\right to close this"
  | missingLeft => "no \\left for this"
  | unknownEnvironment _ => "unknown environment"
  | mismatchedEnvironment expected _ => "expected " ++ inQuotes (endOf expected) ++ " here"
  | missingEnd environment => "expected " ++ inQuotes (endOf environment) ++ " to close this"
  | missingBegin _ => "no \\begin for this"
  | misplacedSeparator _ => "outside of a table"

end Cause

structure ParseError where
  cause : Cause
  span : Span
deriving DecidableEq, Repr

namespace ParseError

def message (error : ParseError) : String := error.cause.message

def display (error : ParseError) : String := toString error.span.start ++ ": " ++ error.message

def insert (error : ParseError) : List ParseError → List ParseError
  | [] => [error]
  | first :: rest =>
      if error.span.start ≤ first.span.start then error :: first :: rest
      else first :: insert error rest

def byStart (errors : List ParseError) : List ParseError := errors.foldr insert []

end ParseError

end TexMath
