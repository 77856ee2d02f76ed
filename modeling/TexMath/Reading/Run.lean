import TexMath.Reading.Grammar
import TexMath.Token.Scan

/-!
# Reading a formula

`Formula.read` reads a source and gives the first error in it, `Formula.readAll` gives all of them
by the offset at which they start.
-/

namespace TexMath

def Readers.root (readers : Readers) (context : Context) : Reading Formula := do
  let formula ← readers.row context []
  if formula.isEmpty && !context.options.allowEmpty then
    context.report ⟨.emptyInput, ⟨0, context.sourceEnd⟩⟩
  pure formula

/-- Runs a reading of the source.  Each level of the readers takes an item or ends, so the levels
are never used up. -/
def runReading (mode : ReadingMode) (options : ReadingOptions) (source : String) :
    EStateM.Result ParseError State Formula :=
  let items := significantItems source
  let context : Context := { options, mode, sourceEnd := source.utf8ByteSize }
  ((Readers.upTo (items.length + 1)).root context).run { rest := items }

structure Collected where
  /-- The recorded errors, in the order in which they were hit. -/
  reported : List ParseError
  outcome : Except ParseError Formula

namespace Collected

def errors (collected : Collected) : List ParseError :=
  match collected.outcome with
  | .ok _ => collected.reported
  | .error error => collected.reported ++ [error]

end Collected

namespace Formula

def collect (source : String) (options : ReadingOptions := {}) : Collected :=
  match runReading .collect options source with
  | .ok formula state => ⟨state.reported.reverse, .ok formula⟩
  | .error error state => ⟨state.reported.reverse, .error error⟩

def readUntilError (source : String) (options : ReadingOptions := {}) :
    Except ParseError Formula :=
  match runReading .firstError options source with
  | .ok formula _ => .ok formula
  | .error error _ => .error error

def readAll (source : String) (options : ReadingOptions := {}) :
    Except (List ParseError) Formula :=
  match collect source options with
  | ⟨[], .ok formula⟩ => .ok formula
  | collected => .error (ParseError.byStart collected.errors)

/-- Reads a source.  On failure the error at the lowest offset is given, which need not be the one
that is hit first. -/
def read (source : String) (options : ReadingOptions := {}) : Except ParseError Formula :=
  match readUntilError source options with
  | .ok formula => .ok formula
  | .error first =>
      match readAll source options with
      | .error (lowest :: _) => .error lowest
      | _ => .error first

end Formula

end TexMath
