import TexMath.Proofs.Grammar.Language
import TexMath.Proofs.Grammar.Segments

/-!
# The spans of what is read

Where nothing is filled in, the span of an atom is its own source: the atom is read again from the
text there.  The spans at one depth follow one another, those below an atom lie inside of it, and
the text that no span covers is white space and comments.
-/

namespace TexMath.Formula

open Grammar

variable {source : String} {options : ReadingOptions} {formula : Formula}

theorem exists_derivation (hexact : options.fillMissing = false)
    (h : read source options = .ok formula) :
    nest formula ≤ options.maxDepth ∧ ∃ lexemes, significantItems source = lexemes.map .lexeme ∧
      Lexeme.InOrder 0 lexemes ∧ Row false lexemes formula := by
  obtain ⟨-, hdepth, lexemes, hitems, hrow⟩ :=
    (readUntilError_eq_ok_iff hexact).mp (read_eq_ok_iff.mp h)
  exact ⟨hdepth, lexemes, hitems, inOrder_of_significantItems hitems, hrow⟩

theorem read_of_segment {slice : String} {atom : Atom} {lexemes twins : List Lexeme}
    (hexact : options.fillMissing = false) (hsegment : Segment lexemes atom)
    (hdepth : nest [atom] ≤ options.maxDepth)
    (hitems : significantItems slice = twins.map .lexeme)
    (hsame : Lexeme.SameTokens twins lexemes) :
    ∃ found : Atom, read slice options = .ok [found] ∧ alike [found] [atom] = true := by
  obtain ⟨found, hrow, hfound⟩ := hsegment.relocate hsame
  have htwin : erase [found] = erase [atom] := by
    rw [erase_cons, erase_cons, hfound]
  refine ⟨found, ?_, (alike_iff _ _).mpr htwin⟩
  rw [read_eq_ok_iff, readUntilError_eq_ok_iff hexact, nest_eq_of_erase htwin]
  exact ⟨.inr (by simp), hdepth, twins, hitems, hrow⟩

theorem span_covers_own_source (source : String) (options : ReadingOptions) (formula row : Formula)
    (atom : Atom) (hexact : options.fillMissing = false) (h : read source options = .ok formula)
    (hbelow : HasRow formula row) (hatom : atom ∈ row) :
    atom.span.start < atom.span.stop ∧ ∃ slice : String, atom.span.Covers source slice ∧
      ∃ found : Atom, read slice options = .ok [found] ∧ alike [found] [atom] = true := by
  obtain ⟨hdepth, lexemes, hitems, horder, hformula⟩ := exists_derivation hexact h
  obtain ⟨front, own, back, rfl, hrow⟩ := hformula.exists_row horder hbelow
  have hown := horder.middle.2.1
  obtain ⟨before, segment, after, rfl, hsegment⟩ := (hrow.segments hown).exists_segment hatom
  have hsame : front ++ (before ++ segment ++ after) ++ back =
      front ++ before ++ segment ++ (after ++ back) := by simp
  rw [hsame] at hitems
  obtain ⟨slice, hcovers, twins, htwins, htokens⟩ :=
    significantItems_slice hsegment.ne_nil hitems
  have hnest : nest [atom] ≤ options.maxDepth := by
    have hatomic := nest_le_iff.mp (Nat.le_trans hbelow.nest_le hdepth) atom hatom
    simpa using hatomic
  rw [← hsegment.span_eq] at hcovers
  exact ⟨(hsegment.bounds hown.middle.2.1).2.1, slice, hcovers,
    read_of_segment hexact hsegment hnest htwins htokens⟩

theorem radicand_covers_its_source :
    ∃ atom : Atom, atom.span = ⟨9, 12⟩ ∧
      ∃ slice : String, atom.span.Covers "\\sqrt[n]\x7bx_1\x7d" slice ∧
        ∃ found : Atom, read slice {} = .ok [found] ∧ alike [found] [atom] = true := by
  let radicand : Atom :=
    { kind := .ordinary, nucleus := "x", subscript := some [.symbol .ordinary "1" ⟨11, 12⟩]
      span := ⟨9, 12⟩ }
  let root : Atom :=
    { kind := .radical, nucleus := "√", span := ⟨0, 13⟩
      arguments := [[radicand], [.symbol .ordinary "n" ⟨6, 7⟩]] }
  have hread : read "\\sqrt[n]\x7bx_1\x7d" {} = .ok [root] := by decide +kernel
  have hslot : [radicand] ∈ root.slots := List.mem_cons_self
  have hbelow : HasRow [root] [radicand] := .deeper List.mem_cons_self hslot (.self _)
  exact ⟨radicand, rfl,
    (span_covers_own_source _ {} _ _ radicand rfl hread hbelow List.mem_cons_self).2⟩

theorem spans_are_nested (source : String) (options : ReadingOptions) (formula : Formula)
    (hexact : options.fillMissing = false) (h : read source options = .ok formula) :
    (∀ row, HasRow formula row →
      (row.Pairwise fun a b => a.span.stop ≤ b.span.start) ∧
      ∀ atom ∈ row, atom.span.start < atom.span.stop ∧
        (∀ slot ∈ atom.slots, ∀ below, HasRow slot below →
          ∀ inner ∈ below, inner.span.Inside atom.span) ∧
        atom.slots.Pairwise Apart) ∧
    ∀ byte, byte < source.utf8ByteSize → (∀ atom ∈ formula, ¬ atom.span.Contains byte) →
      SpacingAt source byte ∨ InComment source byte := by
  obtain ⟨-, lexemes, hitems, horder, hformula⟩ := exists_derivation hexact h
  constructor
  · intro row hbelow
    obtain ⟨front, own, back, rfl, hrow⟩ := hformula.exists_row horder hbelow
    have hown := horder.middle.2.1
    have hsegments := hrow.segments hown
    refine ⟨hsegments.pairwise hown, fun atom hatom => ?_⟩
    obtain ⟨before, segment, after, rfl, hsegment⟩ := hsegments.exists_segment hatom
    have hpart := hown.middle.2.1
    exact ⟨(hsegment.bounds hpart).2.1, fun slot hslot below => hsegment.inside hpart hslot,
      hsegment.pairwise_apart hpart⟩
  · intro byte hbyte houtside
    rcases covered_of_significantItems hitems hbyte with hspacing | hcomment | hlexeme
    · exact .inl hspacing
    · exact .inr hcomment
    · obtain ⟨lexeme, hmem, hlow, hhigh⟩ := hlexeme
      obtain ⟨atom, hatom, hstart, hstop⟩ :=
        (hformula.segments horder).exists_atom horder hmem
      exact absurd ⟨Nat.le_trans hstart hlow, Nat.lt_of_lt_of_le hhigh hstop⟩ (houtside atom hatom)

theorem root_spans_are_nested :
    ∃ radical, read "\\sqrt[n]y %r" {} = .ok [radical] ∧ radical.span = ⟨0, 9⟩ ∧
      radical.slots.Pairwise Apart ∧
      (SpacingAt "\\sqrt[n]y %r" 10 ∨ InComment "\\sqrt[n]y %r" 10) := by
  let radical : Atom :=
    { kind := .radical, nucleus := "√", span := ⟨0, 9⟩
      arguments := [[.symbol .ordinary "y" ⟨8, 9⟩], [.symbol .ordinary "n" ⟨6, 7⟩]] }
  have hread : read "\\sqrt[n]y %r" {} = .ok [radical] := by decide +kernel
  obtain ⟨hrows, hbytes⟩ := spans_are_nested _ {} _ rfl hread
  have houtside : ∀ atom ∈ [radical], ¬ atom.span.Contains 10 := by
    simp [radical, Span.Contains]
  exact ⟨radical, hread, rfl, ((hrows _ (.self _)).2 radical List.mem_cons_self).2.2,
    hbytes 10 (by decide) houtside⟩

end TexMath.Formula
