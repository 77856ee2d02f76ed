import TexMath.Reading.Grammar

/-!
# The lexeme that an error is about

Every error that a rule of the reading reports has the span of one lexeme.  `Cause.At` lists the
causes with what that lexeme has to be.  An error that ends the reading because of its depth may be
about any lexeme, and a source without atoms is at fault as a whole.
-/

namespace TexMath

def TakesArgument (command : String) : Prop :=
  (∃ which : Script, command = which.mark) ∨
    ∃ name template, Command.find? name = some (.atom template) ∧ command = "\\" ++ name

theorem takesArgument_mark (which : Script) : TakesArgument which.mark := .inl ⟨which, rfl⟩

inductive Cause.At (lexeme : Lexeme) : Cause → Prop
  | unknownCommand {name : String} :
      lexeme.token = .command name → Command.find? name = none → At lexeme (.unknownCommand name)
  | missingArgument {command : String} :
      TakesArgument command → At lexeme (.missingArgument command)
  | duplicateScript {which : Script} :
      lexeme.token.script? = some which → At lexeme (.duplicateScript which)
  | scriptNotAllowed {which : Script} :
      lexeme.token.script? = some which → At lexeme (.scriptNotAllowed which)
  | openBrace : lexeme.token = .braceOpen → At lexeme .unbalancedBraces
  | closeBrace : lexeme.token = .braceClose → At lexeme .unbalancedBraces
  | unbalancedBrackets : lexeme.token = .bracketOpen → At lexeme .unbalancedBrackets
  | unexpectedCharacter {c : Char} :
      lexeme.token = .character c → Literal.kind? c = none → At lexeme (.unexpectedCharacter c)
  | invalidLimits {name : String} {value : Bool} :
      lexeme.token = .command name → Command.find? name = some (.limits value) →
      At lexeme .invalidLimits
  | missingLeftDelimiter : lexeme.token = .command "left" → At lexeme (.missingDelimiter .left)
  | missingRightDelimiter : lexeme.token = .command "right" → At lexeme (.missingDelimiter .right)
  | invalidDelimiter :
      lexeme.token ≠ .sourceEnd → At lexeme (.invalidDelimiter (Text.trimEnd lexeme.text))
  | missingRight : lexeme.token = .command "left" → At lexeme .missingRight
  | missingLeft : lexeme.token = .command "right" → At lexeme .missingLeft
  | mismatchedEnvironment {expected found : Environment} :
      lexeme.token = .environmentEnd found → At lexeme (.mismatchedEnvironment expected found)
  | missingEnd {environment : Environment} :
      lexeme.token = .environmentBegin environment → At lexeme (.missingEnd environment)
  | missingBegin {environment : Environment} :
      lexeme.token = .environmentEnd environment → At lexeme (.missingBegin environment)
  | columnMark : lexeme.token = .columnMark → At lexeme (.misplacedSeparator .column)
  | newRow : lexeme.token = .command "\\" → At lexeme (.misplacedSeparator .row)

end TexMath
