/-!
# Pieces of TeX text

TeX text is written piece by piece.  A command name that consists of letters would swallow a
letter written right after it, so a space is put between them; no other two pieces are separated.
-/

namespace TexMath

inductive Piece where
  | command (name : String)
  | text (chars : String)
deriving DecidableEq, Repr

namespace Piece

def braced (content : List Piece) : List Piece := .text "\x7b" :: content ++ [.text "\x7d"]

def isWord (name : String) : Bool := !name.isEmpty && name.toList.all Char.isAlpha

def startsWithLetter (text : String) : Bool := (text.toList.head?.map Char.isAlpha).getD false

/-- What is written for a piece, given whether a word command was written last. -/
def spell (afterWord : Bool) : Piece → String
  | command name => "\\" ++ name
  | text chars => if afterWord && startsWithLetter chars then " " ++ chars else chars

def leavesWord (afterWord : Bool) : Piece → Bool
  | command name => isWord name
  | text chars => afterWord && chars.isEmpty

def spellings (afterWord : Bool) : List Piece → List String
  | [] => []
  | piece :: rest => piece.spell afterWord :: spellings (piece.leavesWord afterWord) rest

def endsInWord (afterWord : Bool) (pieces : List Piece) : Bool :=
  pieces.foldl leavesWord afterWord

def render (pieces : List Piece) : String := String.join (spellings false pieces)

theorem spellings_append (afterWord : Bool) (front back : List Piece) :
    spellings afterWord (front ++ back) =
      spellings afterWord front ++ spellings (endsInWord afterWord front) back := by
  induction front generalizing afterWord with
  | nil => rfl
  | cons piece front ih => simp [spellings, endsInWord, ih]

end Piece

end TexMath
