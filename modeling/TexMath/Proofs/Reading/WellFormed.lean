import TexMath.Proofs.Reading.Construction

/-!
# What is read is well formed

Whatever a reading that stops at the first error returns is well formed, placeholders included, by
induction on how it has been built.
-/

namespace TexMath

/-- The atoms in the order of the source. -/
def Part.inOrder : Part → List Atom → Formula
  | .row, atoms => atoms.reverse
  | .slot, atoms => atoms

namespace Formula

variable {atoms : List Atom} {atom : Atom}

theorem wellFormed_reverse_cons :
    WellFormed (atom :: atoms).reverse ↔ WellFormed atoms.reverse ∧ atom.WellFormed ∧
      (atoms.reverse ≠ [] → Atom.Produced atom.kind atom.nucleus) := by
  rw [List.reverse_cons, wellFormed_concat]

theorem WellFormed.join (hatoms : WellFormed atoms.reverse) (hatom : atom.WellFormed)
    (hproduced : Atom.Produced atom.kind atom.nucleus) : WellFormed (atom :: atoms).reverse :=
  wellFormed_reverse_cons.mpr ⟨hatoms, hatom, fun _ => hproduced⟩

end Formula

theorem Built.wellFormed {source : String} {part : Part} {low stop : Nat} {atoms : List Atom}
    (h : Built source part low stop atoms) : (part.inOrder atoms).WellFormed := by
  induction h with
  | nil => exact Formula.wellFormed_nil
  | wider _ _ _ ih => exact ih
  | slot _ ih => exact ih
  | missing _ _ =>
      exact Formula.wellFormed_singleton.mpr
        (.symbol (.command Command.find?_square rfl) nofun rfl _)
  | character hkind _ _ ih => exact ih.join (.character hkind _) (.character hkind)
  | command hfind hle hge _ _ _ harguments ih =>
      exact ih.join (.command hfind hle hge harguments) (.command hfind rfl)
  | group hglyphs _ _ _ hcontent ih => exact ih.join (.group _ hcontent hglyphs) .group
  | table hshape _ _ _ hcells ih =>
      exact ih.join (.table hshape hcells) (.environment _)
  | script haccepts _ _ _ hcontent ih =>
      -- The atom that gets the script stands where it stood.
      obtain ⟨hearlier, hatom, hproduced⟩ := Formula.wellFormed_reverse_cons.mp ih
      refine Formula.wellFormed_reverse_cons.mpr
        ⟨hearlier, hatom.withScript haccepts hcontent _ _, ?_⟩
      simpa using hproduced
  | scriptBase _ _ _ hcontent =>
      exact Formula.wellFormed_singleton.mpr (.scriptBase hcontent _ _ _)
  | limits hkind _ _ ih =>
      obtain ⟨hearlier, hatom, hproduced⟩ := Formula.wellFormed_reverse_cons.mp ih
      refine Formula.wellFormed_reverse_cons.mpr
        ⟨hearlier, hatom.withLimits hkind _ _, fun hne => ?_⟩
      exact (hkind ▸ hproduced hne).largeOperator _

theorem Formula.wellFormed_of_readUntilError {source : String} {options : ReadingOptions}
    {formula : Formula} (h : readUntilError source options = .ok formula) : WellFormed formula := by
  obtain ⟨stop, hbuilt⟩ := exists_built_of_read (read_eq_ok_iff.mpr h)
  exact hbuilt.wellFormed

end TexMath
