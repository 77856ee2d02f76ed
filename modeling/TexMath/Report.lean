import TexMath.ParseError
import TexMath.Text.Position

/-!
# Reports

What a reader of a source is told about an error in it, and what a report of the error is drawn
from.
-/

namespace TexMath

structure Report where
  message : String
  position : Text.Position
  label : String
deriving DecidableEq, Repr

def ParseError.report (error : ParseError) (source : String) : Report where
  message := error.message
  position := Text.positionAt source error.span.start
  label := error.cause.label

structure Notice where
  sourceName : String
  color : Bool
  /-- The part of the source that the label is for.  The report is about its start. -/
  span : Span
  message : String
  label : String
deriving DecidableEq, Repr

def ParseError.notice (error : ParseError) (sourceName : String) (color : Bool) : Notice where
  sourceName
  color
  span := error.span
  message := error.message
  label := error.cause.label

def Text.Position.text (position : Position) : String :=
  toString position.line ++ ":" ++ toString position.column

end TexMath
