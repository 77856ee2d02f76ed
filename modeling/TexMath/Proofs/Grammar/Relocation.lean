import TexMath.Proofs.Formula.Erasure

/-!
# Derivations depend on tokens only

Lexemes with the same tokens, wherever they stand in a source, derive formulas that differ in their
spans alone.
-/

namespace TexMath

def Lexeme.SameTokens (lexemes others : List Lexeme) : Prop :=
  lexemes.map token = others.map token

namespace Lexeme.SameTokens

variable {lexemes front back : List Lexeme} {lexeme : Lexeme}

theorem eq_nil (h : SameTokens lexemes []) : lexemes = [] := by
  simpa [SameTokens] using h

theorem exists_cons (h : SameTokens lexemes (lexeme :: back)) :
    ∃ first rest, lexemes = first :: rest ∧ first.token = lexeme.token ∧ SameTokens rest back := by
  obtain ⟨first, rest, rfl, hfirst, hrest⟩ := List.map_eq_cons_iff.mp h
  exact ⟨first, rest, rfl, hfirst, hrest⟩

theorem exists_append (h : SameTokens lexemes (front ++ back)) :
    ∃ first rest, lexemes = first ++ rest ∧ SameTokens first front ∧ SameTokens rest back := by
  rw [SameTokens, List.map_append] at h
  obtain ⟨first, rest, rfl, hfirst, hrest⟩ := List.map_eq_append_iff.mp h
  exact ⟨first, rest, rfl, hfirst, hrest⟩

theorem head_ne (h : SameTokens lexemes back) {token : Token}
    (hback : ∀ next ∈ back.head?, next.token ≠ token) :
    ∀ next ∈ lexemes.head?, next.token ≠ token := by
  intro next hnext
  cases back with
  | nil =>
      rw [h.eq_nil] at hnext
      cases hnext
  | cons lexeme back =>
      obtain ⟨first, rest, rfl, hfirst, -⟩ := h.exists_cons
      cases hnext
      rw [hfirst]
      exact hback lexeme rfl

theorem exists_singleton (h : SameTokens lexemes [lexeme]) :
    ∃ first, lexemes = [first] ∧ first.token = lexeme.token := by
  obtain ⟨first, rest, rfl, hfirst, hrest⟩ := h.exists_cons
  exact ⟨first, by rw [hrest.eq_nil], hfirst⟩

end Lexeme.SameTokens

namespace Grammar

open Lexeme

theorem map_dropEmptyRow (rows : List (List Formula)) :
    (dropEmptyRow rows).map (·.map Formula.erase) =
      dropEmptyRow (rows.map (·.map Formula.erase)) := by
  rcases List.eq_nil_or_concat rows with rfl | ⟨front, last, rfl⟩
  · rfl
  rw [List.concat_eq_append, List.map_append, List.map_singleton]
  by_cases hlast : last = [[]]
  · subst hlast
    rw [dropEmptyRow_concat, List.map_singleton, Formula.erase_nil, dropEmptyRow_concat]
  · have hmapped : last.map Formula.erase ≠ [[]] := by
      intro hmap
      obtain ⟨cell, rest, rfl, hcell, hrest⟩ := List.map_eq_cons_iff.mp hmap
      rw [Formula.erase_eq_nil] at hcell
      rw [List.map_eq_nil_iff] at hrest
      exact hlast (by rw [hcell, hrest])
    rw [dropEmptyRow_of_ne _ hlast, dropEmptyRow_of_ne _ hmapped, List.map_append,
      List.map_singleton]

theorem Limits.relocate {atom operator : Atom} {lexemes : List Lexeme}
    (h : Limits atom lexemes operator) :
    ∀ {others : List Lexeme} {twin : Atom}, SameTokens others lexemes → twin.erase = atom.erase →
      ∃ result, Limits twin others result ∧ result.erase = operator.erase := by
  induction h with
  | nil atom =>
      intro others twin hsame htwin
      rw [hsame.eq_nil]
      exact ⟨twin, .nil twin, htwin⟩
  | cons hkind hscripts htoken hfind _ ih =>
      intro others twin hsame htwin
      obtain ⟨first, rest, rfl, hfirst, hrest⟩ := hsame.exists_cons
      obtain ⟨result, hlimits, hresult⟩ :=
        ih hrest (Atom.erase_withLimits htwin _ first.span _)
      exact ⟨result, .cons ((Atom.kind_of_erase htwin).trans hkind)
        (Atom.hasScripts_of_erase htwin hscripts) (hfirst.trans htoken) hfind hlimits, hresult⟩

mutual

theorem Row.relocate {inIndex : Bool} {lexemes others : List Lexeme} {formula : Formula}
    (hsame : SameTokens others lexemes) :
    Row inIndex lexemes formula →
      ∃ twin, Row inIndex others twin ∧ Formula.erase twin = Formula.erase formula
  | .plain hitems => by
      obtain ⟨twin, hrow, htwin⟩ := hitems.relocate hsame
      exact ⟨twin, .plain hrow, htwin⟩
  | .scripted hscripts hitems => by
      obtain ⟨front, back, rfl, hfront, hback⟩ := hsame.exists_append
      obtain ⟨mark, marked, rfl, -, -⟩ := hfront.exists_cons
      obtain ⟨atom, hatom, htwin⟩ :=
        hscripts.relocate hfront (Atom.erase_scriptBase mark.span.start _)
      obtain ⟨rest, hrest, htwins⟩ := hitems.relocate hback
      exact ⟨atom :: rest, .scripted hatom hrest, by simp [htwin, htwins]⟩

theorem Items.relocate {inIndex : Bool} {lexemes others : List Lexeme} {formula : Formula}
    (hsame : SameTokens others lexemes) :
    Items inIndex lexemes formula →
      ∃ twin, Items inIndex others twin ∧ Formula.erase twin = Formula.erase formula
  | .nil => by
      rw [hsame.eq_nil]
      exact ⟨[], .nil, rfl⟩
  | .cons hnucleus hlimits hscripts hitems => by
      obtain ⟨front, back, rfl, hfront, hback⟩ := hsame.exists_append
      obtain ⟨front, third, rfl, hfront, hthird⟩ := hfront.exists_append
      obtain ⟨first, second, rfl, hfirst, hsecond⟩ := hfront.exists_append
      obtain ⟨nucleus, hnucleus, htwin⟩ := hnucleus.relocate hfirst
      obtain ⟨operator, hlimits, htwin⟩ := hlimits.relocate hsecond htwin
      obtain ⟨atom, hscripts, htwin⟩ := hscripts.relocate hthird htwin
      obtain ⟨rest, hitems, htwins⟩ := hitems.relocate hback
      exact ⟨atom :: rest, .cons hnucleus hlimits hscripts hitems, by simp [htwin, htwins]⟩

theorem Scripts.relocate {inIndex : Bool} {lexemes others : List Lexeme} {atom twin result : Atom}
    (hsame : SameTokens others lexemes) (htwin : twin.erase = atom.erase) :
    Scripts inIndex atom lexemes result →
      ∃ found, Scripts inIndex twin others found ∧ found.erase = result.erase
  | .nil atom => by
      rw [hsame.eq_nil]
      exact ⟨twin, .nil twin, htwin⟩
  | .cons hmark haccepts hfree hargument hrest => by
      obtain ⟨front, back, rfl, hfront, hback⟩ := hsame.exists_append
      obtain ⟨mark, marked, rfl, htoken, hmarked⟩ := hfront.exists_cons
      obtain ⟨content, hargument, hcontent⟩ := hargument.relocate hmarked
      obtain ⟨found, hrest, hfound⟩ := hrest.relocate hback
        (Atom.erase_withScript htwin _ hcontent ⟨mark.span.start, endOf mark.span.stop marked⟩ _)
      exact ⟨found, .cons (htoken ▸ hmark) ((Atom.kind_of_erase htwin).symm ▸ haccepts)
        (Atom.script_eq_none_of_erase htwin hfree) hargument hrest, hfound⟩

theorem Argument.relocate {inIndex : Bool} {lexemes others : List Lexeme} {content : Formula}
    (hsame : SameTokens others lexemes) :
    Argument inIndex lexemes content →
      ∃ twin, Argument inIndex others twin ∧ Formula.erase twin = Formula.erase content
  | .braced hopened hrow hclosed => by
      obtain ⟨front, back, rfl, hfront, hback⟩ := hsame.exists_append
      obtain ⟨first, inner, rfl, hfirst, hinner⟩ := hfront.exists_cons
      obtain ⟨last, rfl, hlast⟩ := hback.exists_singleton
      obtain ⟨twin, hrow, htwin⟩ := hrow.relocate hinner
      exact ⟨twin, .braced (hfirst.trans hopened) hrow (hlast.trans hclosed), htwin⟩
  | .bare hbrace hnucleus => by
      obtain ⟨atom, hatom, htwin⟩ := hnucleus.relocate hsame
      obtain ⟨first, rest, rfl, hfirst, -⟩ := hsame.exists_cons
      exact ⟨[atom], .bare (hfirst.symm ▸ hbrace) hatom, by simp [htwin]⟩

theorem Arguments.relocate {inIndex : Bool} {lexemes others : List Lexeme}
    {contents : List Formula} (hsame : SameTokens others lexemes) :
    Arguments inIndex lexemes contents →
      ∃ twins, Arguments inIndex others twins ∧ twins.map Formula.erase = contents.map Formula.erase
  | .nil => by
      rw [hsame.eq_nil]
      exact ⟨[], .nil, rfl⟩
  | .cons hargument hrest => by
      obtain ⟨front, back, rfl, hfront, hback⟩ := hsame.exists_append
      obtain ⟨twin, hargument, htwin⟩ := hargument.relocate hfront
      obtain ⟨twins, hrest, htwins⟩ := hrest.relocate hback
      exact ⟨twin :: twins, .cons hargument hrest, by simp [htwin, htwins]⟩

theorem Nucleus.relocate {inIndex : Bool} {lexemes others : List Lexeme} {atom : Atom}
    (hsame : SameTokens others lexemes) :
    Nucleus inIndex lexemes atom →
      ∃ twin, Nucleus inIndex others twin ∧ twin.erase = atom.erase
  | .character htoken hkind => by
      obtain ⟨first, rfl, hfirst⟩ := hsame.exists_singleton
      exact ⟨_, .character (hfirst.trans htoken) hkind, rfl⟩
  | .bracketOpen htoken => by
      obtain ⟨first, rfl, hfirst⟩ := hsame.exists_singleton
      exact ⟨_, .bracketOpen (hfirst.trans htoken), rfl⟩
  | .bracketClose htoken => by
      obtain ⟨first, rfl, hfirst⟩ := hsame.exists_singleton
      exact ⟨_, .bracketClose (hfirst.trans htoken), rfl⟩
  | .group hopened hrow hclosed => by
      obtain ⟨front, back, rfl, hfront, hback⟩ := hsame.exists_append
      obtain ⟨first, inner, rfl, hfirst, hinner⟩ := hfront.exists_cons
      obtain ⟨last, rfl, hlast⟩ := hback.exists_singleton
      obtain ⟨content, hrow, hcontent⟩ := hrow.relocate hinner
      refine ⟨_, .group (hfirst.trans hopened) hrow (hlast.trans hclosed), ?_⟩
      simp [Atom.group, Atom.erase, Formula.eraseAll, hcontent]
  | .command htoken hfind hnext harguments hlength => by
      obtain ⟨first, rest, rfl, hfirst, hrest⟩ := hsame.exists_cons
      obtain ⟨contents, harguments, hcontents⟩ := harguments.relocate hrest
      have hcount := congrArg List.length hcontents
      simp only [List.length_map] at hcount
      refine ⟨_, .command (hfirst.trans htoken) hfind (fun h => hrest.head_ne (hnext h)) harguments
        (hcount.trans hlength), ?_⟩
      simp [Atom.erase, Formula.eraseAll_eq_map, hcontents]
  | .indexed htoken hfind hoptional hopened hrow hclosed harguments hlength => by
      obtain ⟨front, back, rfl, hfront, hback⟩ := hsame.exists_append
      obtain ⟨first, front, rfl, hfirst, hfront⟩ := hfront.exists_cons
      obtain ⟨second, inner, rfl, hsecond, hinner⟩ := hfront.exists_cons
      obtain ⟨third, rest, rfl, hthird, hrest⟩ := hback.exists_cons
      obtain ⟨index, hrow, hindex⟩ := hrow.relocate hinner
      obtain ⟨contents, harguments, hcontents⟩ := harguments.relocate hrest
      have hcount := congrArg List.length hcontents
      simp only [List.length_map] at hcount
      refine ⟨_, .indexed (hfirst.trans htoken) hfind hoptional (hsecond.trans hopened) hrow
        (hthird.trans hclosed) harguments (hcount.trans hlength), ?_⟩
      simp [Atom.erase, Formula.eraseAll_eq_map, hcontents, hindex]
  | .fenced htoken hfind hleft hrow hclosed hright => by
      obtain ⟨front, back, rfl, hfront, hback⟩ := hsame.exists_append
      obtain ⟨first, front, rfl, hfirst, hfront⟩ := hfront.exists_cons
      obtain ⟨second, inner, rfl, hsecond, hinner⟩ := hfront.exists_cons
      obtain ⟨third, back, rfl, hthird, hback⟩ := hback.exists_cons
      obtain ⟨last, rfl, hlast⟩ := hback.exists_singleton
      obtain ⟨content, hrow, hcontent⟩ := hrow.relocate hinner
      refine ⟨_, .fenced (hfirst.trans htoken) hfind (hsecond.symm ▸ hleft) hrow
        (hthird.trans hclosed) (hlast.symm ▸ hright), ?_⟩
      simp [Atom.group, Atom.erase, Formula.eraseAll, hcontent]
  | .table hopened hgrid hclosed => by
      obtain ⟨front, back, rfl, hfront, hback⟩ := hsame.exists_append
      obtain ⟨first, inner, rfl, hfirst, hinner⟩ := hfront.exists_cons
      obtain ⟨last, rfl, hlast⟩ := hback.exists_singleton
      obtain ⟨rows, hgrid, hrows⟩ := hgrid.relocate hinner
      refine ⟨_, .table (hfirst.trans hopened) hgrid (hlast.trans hclosed), ?_⟩
      simp [Atom.erase, Formula.eraseRows_eq_map, map_dropEmptyRow, hrows]

theorem Grid.relocate {environment : Environment} {lexemes others : List Lexeme}
    {rows : List (List Formula)} (hsame : SameTokens others lexemes) :
    Grid environment lexemes rows →
      ∃ twins, Grid environment others twins ∧
        twins.map (·.map Formula.erase) = rows.map (·.map Formula.erase)
  | .last hrow => by
      obtain ⟨cell, hrow, hcell⟩ := hrow.relocate hsame
      exact ⟨[[cell]], .last hrow, by simp [hcell]⟩
  | .column hcolumns hrow hmark hrest => by
      obtain ⟨front, back, rfl, hfront, hback⟩ := hsame.exists_append
      obtain ⟨mark, rest, rfl, htoken, hmarked⟩ := hback.exists_cons
      obtain ⟨cell, hrow, hcell⟩ := hrow.relocate hfront
      obtain ⟨twins, hrest, htwins⟩ := hrest.relocate hmarked
      obtain ⟨cells, rows, rfl, hcells, hrows⟩ := List.map_eq_cons_iff.mp htwins
      exact ⟨(cell :: cells) :: rows, .column hcolumns hrow (htoken.trans hmark) hrest,
        by simp [hcell, hcells, hrows]⟩
  | .row hrow hmark hrest => by
      obtain ⟨front, back, rfl, hfront, hback⟩ := hsame.exists_append
      obtain ⟨mark, rest, rfl, htoken, hmarked⟩ := hback.exists_cons
      obtain ⟨cell, hrow, hcell⟩ := hrow.relocate hfront
      obtain ⟨twins, hrest, htwins⟩ := hrest.relocate hmarked
      obtain ⟨cells, rows, rfl, hcells, hrows⟩ := List.map_eq_cons_iff.mp htwins
      exact ⟨[cell] :: cells :: rows, .row hrow (htoken.trans hmark) hrest,
        by simp [hcell, hcells, hrows]⟩

end

/-! ## Formulas derived from tokens -/

def Derives (tokens : List Token) (formula : Formula) : Prop :=
  ∃ lexemes found, lexemes.map token = tokens ∧ Row false lexemes found ∧
    Formula.erase found = Formula.erase formula

theorem derives_iff {lexemes : List Lexeme} {formula : Formula} :
    Derives (lexemes.map token) formula ↔
      ∃ found, Row false lexemes found ∧ Formula.erase found = Formula.erase formula := by
  constructor
  · rintro ⟨others, found, hsame, hrow, hfound⟩
    have hlexemes : SameTokens lexemes others := hsame.symm
    obtain ⟨twin, hrow, htwin⟩ := hrow.relocate hlexemes
    exact ⟨twin, hrow, htwin.trans hfound⟩
  · rintro ⟨found, hrow, hfound⟩
    exact ⟨lexemes, found, rfl, hrow, hfound⟩

end Grammar

end TexMath
