import Mathlib.Data.List.Induction
import TexMath.Canonical

/-!
# Canonical text of two formulas in a row

The writer keeps one bit of state, whether a word command was written last.  What that bit does to
the pieces that follow is at most a space in front of them, so the canonical text of two formulas
in a row is their two texts with at most a space in between.
-/

namespace TexMath

namespace Piece

def isWordCommand : Piece → Bool
  | command name => isWord name
  | text _ => false

/-- The last of the pieces that puts anything on the page: empty text does not. -/
def lastWritten? (pieces : List Piece) : Option Piece :=
  (pieces.filter (· ≠ .text "")).getLast?

theorem lastWritten?_concat (pieces : List Piece) (piece : Piece) :
    lastWritten? (pieces ++ [piece]) = if piece = .text "" then lastWritten? pieces else piece := by
  by_cases h : piece = .text "" <;> simp [lastWritten?, h]

theorem endsInWord_concat (afterWord : Bool) (pieces : List Piece) (piece : Piece) :
    endsInWord afterWord (pieces ++ [piece]) = piece.leavesWord (endsInWord afterWord pieces) := by
  simp [endsInWord]

theorem leavesWord_eq (afterWord : Bool) (piece : Piece) :
    piece.leavesWord afterWord =
      if piece = .text "" then afterWord else piece.isWordCommand := by
  cases piece with
  | command name => simp [leavesWord, isWordCommand]
  | text chars => by_cases h : chars = "" <;> simp [leavesWord, isWordCommand, h]

theorem endsInWord_eq (afterWord : Bool) (pieces : List Piece) :
    endsInWord afterWord pieces = ((lastWritten? pieces).map isWordCommand).getD afterWord := by
  induction pieces using List.reverseRecOn with
  | nil => rfl
  | append_singleton pieces piece ih =>
      rw [endsInWord_concat, lastWritten?_concat, leavesWord_eq, ih]
      split <;> simp

theorem render_cons (piece : Piece) (rest : List Piece) :
    render (piece :: rest) =
      piece.spell false ++ String.join (spellings (piece.leavesWord false) rest) := by
  simp [render, spellings]

theorem startsWithLetter_append {front : String} (back : String) (h : front ≠ "") :
    startsWithLetter (front ++ back) = startsWithLetter front := by
  have hfront : front.toList ≠ [] := by simpa using h
  obtain ⟨c, rest, hcons⟩ := List.exists_cons_of_ne_nil hfront
  simp [startsWithLetter, hcons]

theorem spellings_empty (afterWord : Bool) (rest : List Piece) :
    spellings afterWord (.text "" :: rest) = "" :: spellings afterWord rest := by
  have hspell : spell afterWord (.text "") = "" := by cases afterWord <;> rfl
  simp [spellings, hspell, leavesWord_eq]

theorem join_spellings (afterWord : Bool) (pieces : List Piece) :
    String.join (spellings afterWord pieces) =
      (if afterWord && startsWithLetter (render pieces) then " " else "") ++ render pieces := by
  induction pieces with
  | nil => cases afterWord <;> rfl
  | cons piece rest ih =>
      cases piece with
      | command name =>
          have hstart : startsWithLetter (render (.command name :: rest)) = false := by
            simp [render_cons, spell, startsWithLetter]
          rw [hstart, render_cons]
          simp [spellings, spell, leavesWord]
      | text chars =>
          by_cases hchars : chars = ""
          · -- Empty text leaves the state as it is, so the rest is written in the same one.
            subst hchars
            simpa [render, spellings_empty] using ih
          · have hempty : chars.isEmpty = false := by simpa using hchars
            have hstart : startsWithLetter (render (.text chars :: rest)) =
                startsWithLetter chars := by
              simp [render_cons, spell, startsWithLetter_append _ hchars]
            rw [hstart, render_cons]
            cases h : afterWord && startsWithLetter chars <;>
              simp [spellings, spell, leavesWord, h, hempty, String.append_assoc]

theorem render_append (front back : List Piece) :
    render (front ++ back) =
      render front ++
        (if endsInWord false front && startsWithLetter (render back) then " " else "") ++
        render back := by
  rw [render, spellings_append, String.join_append, join_spellings (endsInWord false front),
    ← String.append_assoc]
  rfl

end Piece

namespace Formula

/-- What the canonical texts of two formulas in a row need between them. -/
def separator (a b : Formula) : String :=
  if (Piece.lastWritten? (pieces false a)).any Piece.isWordCommand && Piece.startsWithLetter b.text
  then " " else ""

theorem text_append (a b : Formula) : text (a ++ b) = text a ++ separator a b ++ text b := by
  have hword : Piece.endsInWord false (pieces false a) =
      (Piece.lastWritten? (pieces false a)).any Piece.isWordCommand := by
    rw [Piece.endsInWord_eq]
    cases Piece.lastWritten? (pieces false a) <;> rfl
  rw [text, pieces_append, Piece.render_append, hword]
  rfl

end Formula

end TexMath
