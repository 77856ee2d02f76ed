import TexMath.Atom.Basic
import TexMath.Environment
import TexMath.Symbol.Command
import TexMath.Symbol.Delimiter
import TexMath.Symbol.Literal

/-!
# Canonical text

Each formula has one canonical text: arguments and scripts stand in braces, and a symbol is its
character if it has one, and else the canonical name of its command.  `Formula.pieces` gives the
pieces of that text and `Formula.text` the text.
-/

namespace TexMath

namespace Atom

/-- The piece for the symbol of an atom.  In the index of a root a closing bracket would end the
index, so it is written by name there. -/
def symbolPiece (inIndex : Bool) (kind : AtomKind) (nucleus : String) : Piece :=
  match Literal.char? kind nucleus with
  | some c => if c = ']' ∧ inIndex then .command "rbrack" else .text (String.singleton c)
  | none =>
      match Command.name? kind nucleus with
      | some name => .command name
      | none => .text nucleus

/-- The limits command of a large operator, if it does not set its scripts where it would
anyway. -/
def limitsPieces (limits : Bool) (nucleus : String) : List Piece :=
  match Command.defaultLimits? nucleus with
  | some usual =>
      if usual = limits then [] else [.command (if limits then "limits" else "nolimits")]
  | none => []

def environmentPieces (command name : String) : List Piece :=
  [.command command, .text "\x7b", .text name, .text "\x7d"]

/-- Whether a last row would be taken for the end of the row before it. -/
def needsRowEnd (rows : List (List Formula)) : Bool :=
  match rows.getLast? with
  | some [[]] => true
  | _ => false

end Atom

mutual

def Formula.pieces (inIndex : Bool) : List Atom → List Piece
  | [] => []
  | atom :: rest => Atom.pieces inIndex atom ++ Formula.pieces inIndex rest

def Atom.pieces (inIndex : Bool) : Atom → List Piece
  | ⟨kind, nucleus, arguments, superscript, subscript, boundaries, rows, _⟩ =>
      let symbol := Atom.symbolPiece inIndex kind nucleus
      let body :=
        match kind with
        | .fraction _ | .accent | .underline | .overline =>
            symbol :: Formula.bracedAll inIndex arguments
        | .radical => symbol :: Formula.rootPieces inIndex arguments
        | .largeOperator limits => symbol :: Atom.limitsPieces limits nucleus
        | .inner =>
            match boundaries with
            | some ⟨left, right⟩ =>
                [.command "left", Delimiter.piece left] ++ Formula.firstPieces inIndex arguments ++
                  [.command "right", Delimiter.piece right]
            | none => Piece.braced (Formula.firstPieces inIndex arguments)
        | .table =>
            Atom.environmentPieces "begin" nucleus ++ Formula.rowsPieces inIndex rows ++
              (if Atom.needsRowEnd rows then [.command "\\"] else []) ++
              Atom.environmentPieces "end" nucleus
        | _ => [symbol]
      body ++ Formula.scriptPieces inIndex "^" superscript ++
        Formula.scriptPieces inIndex "_" subscript

def Formula.bracedAll (inIndex : Bool) : List (List Atom) → List Piece
  | [] => []
  | formula :: rest => Piece.braced (Formula.pieces inIndex formula) ++ Formula.bracedAll inIndex rest

def Formula.rootPieces (inIndex : Bool) : List (List Atom) → List Piece
  | [] => []
  | [radicand] => Piece.braced (Formula.pieces inIndex radicand)
  | radicand :: index :: _ =>
      .text "[" :: Formula.pieces true index ++
        .text "]" :: Piece.braced (Formula.pieces inIndex radicand)

def Formula.firstPieces (inIndex : Bool) : List (List Atom) → List Piece
  | [] => []
  | formula :: _ => Formula.pieces inIndex formula

def Formula.scriptPieces (inIndex : Bool) (mark : String) : Option (List Atom) → List Piece
  | none => []
  | some formula => .text mark :: Piece.braced (Formula.pieces inIndex formula)

def Formula.cellsPieces (inIndex : Bool) : List (List Atom) → List Piece
  | [] => []
  | [cell] => Formula.pieces inIndex cell
  | cell :: next :: rest =>
      Formula.pieces inIndex cell ++ .text "&" :: Formula.cellsPieces inIndex (next :: rest)

def Formula.rowsPieces (inIndex : Bool) : List (List (List Atom)) → List Piece
  | [] => []
  | [row] => Formula.cellsPieces inIndex row
  | row :: next :: rest =>
      Formula.cellsPieces inIndex row ++ .command "\\" :: Formula.rowsPieces inIndex (next :: rest)

end

def Formula.text (formula : Formula) : String := Piece.render (Formula.pieces false formula)

theorem Formula.pieces_append (inIndex : Bool) (a b : Formula) :
    Formula.pieces inIndex (a ++ b) = Formula.pieces inIndex a ++ Formula.pieces inIndex b := by
  induction a with
  | nil => simp [Formula.pieces]
  | cons atom a ih => simp [Formula.pieces, ih]

end TexMath
