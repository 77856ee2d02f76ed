import TexMath.Canonical
import TexMath.Proofs.Formula.Erasure

/-!
# Canonical text without spans

The canonical text of a formula does not depend on its spans, so formulas that are alike have the
same text.
-/

namespace TexMath

theorem Formula.map_erase_eq_emptyRow {row : List Formula} : row.map erase = [[]] ↔ row = [[]] := by
  simp [List.map_eq_cons_iff, erase_eq_nil]

theorem Atom.needsRowEnd_eq (rows : List (List Formula)) :
    needsRowEnd rows = decide (rows.getLast? = some [[]]) := by
  unfold needsRowEnd
  split <;> simp_all

theorem Atom.needsRowEnd_eraseRows (rows : List (List Formula)) :
    needsRowEnd (Formula.eraseRows rows) = needsRowEnd rows := by
  rw [needsRowEnd_eq, needsRowEnd_eq, Formula.eraseRows_eq_map, List.getLast?_map]
  cases rows.getLast? with
  | none => rfl
  | some row => simp only [Option.map_some, Option.some.injEq, Formula.map_erase_eq_emptyRow]

mutual

theorem Atom.pieces_erase (inIndex : Bool) : ∀ atom : Atom,
    Atom.pieces inIndex atom.erase = Atom.pieces inIndex atom
  | ⟨kind, nucleus, arguments, superscript, subscript, boundaries, rows, span⟩ => by
      simp only [Atom.erase, Atom.pieces, Formula.bracedAll_eraseAll inIndex arguments,
        Formula.rootPieces_eraseAll inIndex arguments,
        Formula.firstPieces_eraseAll inIndex arguments,
        Formula.scriptPieces_eraseScript inIndex _ superscript,
        Formula.scriptPieces_eraseScript inIndex _ subscript,
        Formula.rowsPieces_eraseRows inIndex rows, Atom.needsRowEnd_eraseRows]

theorem Formula.pieces_erase (inIndex : Bool) : ∀ formula : List Atom,
    Formula.pieces inIndex (Formula.erase formula) = Formula.pieces inIndex formula
  | [] => rfl
  | atom :: rest => by
      simp only [Formula.erase, Formula.pieces, Atom.pieces_erase inIndex atom,
        Formula.pieces_erase inIndex rest]

theorem Formula.bracedAll_eraseAll (inIndex : Bool) : ∀ formulas : List (List Atom),
    Formula.bracedAll inIndex (Formula.eraseAll formulas) = Formula.bracedAll inIndex formulas
  | [] => rfl
  | formula :: rest => by
      simp only [Formula.eraseAll, Formula.bracedAll, Formula.pieces_erase inIndex formula,
        Formula.bracedAll_eraseAll inIndex rest]

theorem Formula.rootPieces_eraseAll (inIndex : Bool) : ∀ formulas : List (List Atom),
    Formula.rootPieces inIndex (Formula.eraseAll formulas) = Formula.rootPieces inIndex formulas
  | [] => rfl
  | [radicand] => by
      simp only [Formula.eraseAll, Formula.rootPieces, Formula.pieces_erase inIndex radicand]
  | radicand :: index :: rest => by
      simp only [Formula.eraseAll, Formula.rootPieces, Formula.pieces_erase inIndex radicand,
        Formula.pieces_erase true index]

theorem Formula.firstPieces_eraseAll (inIndex : Bool) : ∀ formulas : List (List Atom),
    Formula.firstPieces inIndex (Formula.eraseAll formulas) = Formula.firstPieces inIndex formulas
  | [] => rfl
  | formula :: _ => by
      simp only [Formula.eraseAll, Formula.firstPieces, Formula.pieces_erase inIndex formula]

theorem Formula.scriptPieces_eraseScript (inIndex : Bool) (mark : String) :
    ∀ script : Option (List Atom),
      Formula.scriptPieces inIndex mark (Formula.eraseScript script) =
        Formula.scriptPieces inIndex mark script
  | none => rfl
  | some formula => by
      simp only [Formula.eraseScript, Formula.scriptPieces, Formula.pieces_erase inIndex formula]

theorem Formula.cellsPieces_eraseAll (inIndex : Bool) : ∀ cells : List (List Atom),
    Formula.cellsPieces inIndex (Formula.eraseAll cells) = Formula.cellsPieces inIndex cells
  | [] => rfl
  | [cell] => by
      simp only [Formula.eraseAll, Formula.cellsPieces, Formula.pieces_erase inIndex cell]
  | cell :: next :: rest => by
      have hrest := Formula.cellsPieces_eraseAll inIndex (next :: rest)
      simp only [Formula.eraseAll] at hrest
      simp only [Formula.eraseAll, Formula.cellsPieces, Formula.pieces_erase inIndex cell, hrest]

theorem Formula.rowsPieces_eraseRows (inIndex : Bool) : ∀ rows : List (List (List Atom)),
    Formula.rowsPieces inIndex (Formula.eraseRows rows) = Formula.rowsPieces inIndex rows
  | [] => rfl
  | [row] => by
      simp only [Formula.eraseRows, Formula.rowsPieces, Formula.cellsPieces_eraseAll inIndex row]
  | row :: next :: rest => by
      have hrest := Formula.rowsPieces_eraseRows inIndex (next :: rest)
      simp only [Formula.eraseRows] at hrest
      simp only [Formula.eraseRows, Formula.rowsPieces, Formula.cellsPieces_eraseAll inIndex row,
        hrest]

end

theorem Formula.text_eq_of_alike {formula other : Formula} (h : formula.alike other = true) :
    formula.text = other.text := by
  rw [Formula.text, ← Formula.pieces_erase, (Formula.alike_iff _ _).mp h, Formula.pieces_erase,
    Formula.text]

end TexMath
