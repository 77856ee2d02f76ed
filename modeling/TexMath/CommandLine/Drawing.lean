import TexMath.Report

/-!
# Drawn reports

A report shows the line on which an error starts in a frame, with a mark below the place and the
label beside the mark.
-/

namespace TexMath

namespace Text

/-- The characters of the line `ahead` bytes behind the front of it, before that place and from
there on. -/
def lineAround (front : List Char) (ahead : Nat) : List Char → List Char × List Char
  | [] => (front.reverse, [])
  | c :: rest =>
      if ahead = 0 then (front.reverse, (c :: rest).takeWhile fun c => !endsLine c [])
      else if endsLine c rest ∧ ¬ rest.isEmpty then lineAround [] (ahead - c.utf8Size) rest
      else lineAround (c :: front) (ahead - c.utf8Size) rest

def charactersWithin (bytes : Nat) : List Char → Nat
  | [] => 0
  | c :: rest => if bytes = 0 then 0 else charactersWithin (bytes - c.utf8Size) rest + 1

def onOneLine (chars : List Char) : String := String.ofList (chars.filter fun c => !endsLine c [])

def repeated (count : Nat) (c : Char) : String := String.ofList (List.replicate count c)

end Text

namespace Notice

open Text

def heading (color : Bool) : String := if color then "\x1b[31mError:\x1b[0m " else "Error: "

def frame (notice : Notice) (source : String) : List String :=
  let position := positionAt source notice.span.start
  let (front, back) := lineAround [] notice.span.start source.toList
  let width := charactersWithin (notice.span.stop - notice.span.start) back
  let half := width / 2
  let marks :=
    if width = 0 then "│ "
    else repeated half '─' ++ "┬" ++ repeated (width - half - 1) '─' ++ "  "
  let arm := "╰" ++ repeated (width - half + 1) '─' ++ " " ++ onOneLine notice.label.toList
  let number := toString position.line
  let margin := repeated (number.length + 2) ' '
  let place := onOneLine notice.sourceName.toList ++ ":" ++ position.text
  [margin ++ "╭─[ " ++ place ++ " ]",
    margin ++ "│",
    " " ++ number ++ " │ " ++ onOneLine (front ++ back),
    margin ++ "│ " ++ repeated front.length ' ' ++ marks,
    margin ++ "│ " ++ repeated (front.length + half) ' ' ++ arm,
    repeated (number.length + 2) '─' ++ "╯"]

def drawn (notice : Notice) (source : String) : String :=
  heading notice.color ++ notice.message ++ "\n" ++
    String.join ((notice.frame source).map (· ++ "\n"))

end Notice

end TexMath
