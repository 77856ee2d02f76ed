import TexMath.Proofs.Grammar.Relocation
import TexMath.Proofs.Grammar.Size
import TexMath.Proofs.Token.Tiling

/-!
# The lexemes of each atom

The lexemes of a row divide into successive segments, one for each atom: the atom is derived from
its segment alone, its span goes from the first lexeme of the segment to the last, and the formulas
below it are derived from disjoint parts of the segment.
-/

namespace TexMath

open Lexeme

theorem Span.cover_of_le {a b : Span} (hstart : a.start ≤ b.start) (hstop : a.stop ≤ b.stop) :
    a.cover b = ⟨a.start, b.stop⟩ := by
  rw [cover, Nat.min_eq_left hstart, Nat.max_eq_right hstop]

def Span.Inside (inner outer : Span) : Prop :=
  outer.start ≤ inner.start ∧ inner.stop ≤ outer.stop

def Formula.Apart (formula other : Formula) : Prop :=
  (∀ a ∈ formula, ∀ b ∈ other, a.span.stop ≤ b.span.start) ∨
    ∀ a ∈ formula, ∀ b ∈ other, b.span.stop ≤ a.span.start

theorem Formula.Apart.symm {formula other : Formula} (h : Apart formula other) :
    Apart other formula := by
  rcases h with h | h
  · exact .inr fun b hb a ha => h a ha b hb
  · exact .inl fun b hb a ha => h a ha b hb

namespace Lexeme

variable {offset : Nat} {front back lexemes : List Lexeme}

theorem extent_append (hne : front ≠ []) (back : List Lexeme) :
    extent (front ++ back) = ⟨(extent front).start, endOf (extent front).stop back⟩ := by
  obtain ⟨first, front, rfl⟩ := List.exists_cons_of_ne_nil hne
  simp [extent]

theorem stop_extent (hne : lexemes ≠ []) (offset : Nat) :
    (extent lexemes).stop = endOf offset lexemes := by
  obtain ⟨first, lexemes, rfl⟩ := List.exists_cons_of_ne_nil hne
  rfl

theorem InOrder.start_extent (h : InOrder offset lexemes) (hne : lexemes ≠ []) :
    offset ≤ (extent lexemes).start ∧ (extent lexemes).start < (extent lexemes).stop := by
  obtain ⟨first, lexemes, rfl⟩ := List.exists_cons_of_ne_nil hne
  obtain ⟨hstart, hstop, hrest⟩ := h
  exact ⟨hstart, Nat.lt_of_lt_of_le hstop hrest.le_endOf⟩

theorem InOrder.of_extent (h : InOrder offset lexemes) :
    InOrder (extent lexemes).start lexemes := by
  cases lexemes with
  | nil => trivial
  | cons first lexemes => exact ⟨Nat.le_refl _, h.2⟩

end Lexeme

namespace Grammar

/-! ## The index of a root -/

mutual

theorem Row.outside {inIndex : Bool} {lexemes : List Lexeme} {formula : Formula} :
    Row inIndex lexemes formula → Row false lexemes formula
  | .plain hitems => .plain hitems.outside
  | .scripted hscripts hitems => .scripted hscripts.outside hitems.outside

theorem Items.outside {inIndex : Bool} {lexemes : List Lexeme} {formula : Formula} :
    Items inIndex lexemes formula → Items false lexemes formula
  | .nil => .nil
  | .cons hnucleus hlimits hscripts hitems =>
      .cons hnucleus.outside hlimits hscripts.outside hitems.outside

theorem Scripts.outside {inIndex : Bool} {lexemes : List Lexeme} {atom result : Atom} :
    Scripts inIndex atom lexemes result → Scripts false atom lexemes result
  | .nil atom => .nil atom
  | .cons hmark haccepts hfree hargument hrest =>
      .cons hmark haccepts hfree hargument.outside hrest.outside

theorem Argument.outside {inIndex : Bool} {lexemes : List Lexeme} {content : Formula} :
    Argument inIndex lexemes content → Argument false lexemes content
  | .braced hopened hrow hclosed => .braced hopened hrow hclosed
  | .bare hbrace hnucleus => .bare hbrace hnucleus.outside

theorem Arguments.outside {inIndex : Bool} {lexemes : List Lexeme} {contents : List Formula} :
    Arguments inIndex lexemes contents → Arguments false lexemes contents
  | .nil => .nil
  | .cons hargument hrest => .cons hargument.outside hrest.outside

theorem Nucleus.outside {inIndex : Bool} {lexemes : List Lexeme} {atom : Atom} :
    Nucleus inIndex lexemes atom → Nucleus false lexemes atom
  | .character htoken hkind => .character htoken hkind
  | .bracketOpen htoken => .bracketOpen htoken
  | .bracketClose htoken => .bracketClose htoken
  | .group hopened hrow hclosed => .group hopened hrow hclosed
  | .command htoken hfind hnext harguments hlength =>
      .command htoken hfind hnext harguments.outside hlength
  | .indexed htoken hfind hoptional hopened hrow hclosed harguments hlength =>
      .indexed htoken hfind hoptional hopened hrow hclosed harguments.outside hlength
  | .fenced htoken hfind hleft hrow hclosed hright => .fenced htoken hfind hleft hrow hclosed hright
  | .table hopened hgrid hclosed => .table hopened hgrid hclosed

end

theorem Nucleus.ne_nil {inIndex : Bool} {lexemes : List Lexeme} {atom : Atom}
    (h : Nucleus inIndex lexemes atom) : lexemes ≠ [] :=
  List.ne_nil_of_length_pos (Nat.zero_lt_of_lt h.nest_lt)

theorem Nucleus.row {inIndex : Bool} {lexemes : List Lexeme} {atom : Atom}
    (h : Nucleus inIndex lexemes atom) : Row false lexemes [atom] := by
  have hrow := Row.plain (Items.cons h.outside (.nil atom) (.nil atom) .nil)
  simpa using hrow

/-! ## Spans -/

theorem Nucleus.span_eq {inIndex : Bool} {lexemes : List Lexeme} {atom : Atom}
    (h : Nucleus inIndex lexemes atom) : atom.span = extent lexemes := by
  cases h <;> simp [extent, Atom.symbol, Atom.group]

theorem Limits.span_eq {lexemes : List Lexeme} {atom operator : Atom}
    (h : Limits atom lexemes operator) (hle : atom.span.start ≤ atom.span.stop)
    (horder : InOrder atom.span.stop lexemes) :
    operator.span = ⟨atom.span.start, endOf atom.span.stop lexemes⟩ := by
  induction h with
  | nil => rfl
  | cons _ _ _ _ _ ih =>
      obtain ⟨hstart, hstop, hrest⟩ := horder
      rw [Atom.withLimits, Span.cover_of_le (by omega) (by omega)] at ih
      exact ih (by dsimp only; omega) hrest

/-! ## The formulas below an atom -/

/-- The lexemes hold the formulas: each is derived from a part of them, in this order. -/
inductive Holds : List Lexeme → List Formula → Prop
  | nil (lexemes : List Lexeme) : Holds lexemes []
  | cons (front : List Lexeme) {own rest : List Lexeme} {content : Formula}
      {contents : List Formula} :
      Row false own content → Holds rest contents →
      Holds (front ++ own ++ rest) (content :: contents)

namespace Holds

variable {lexemes others : List Lexeme} {contents more : List Formula}

theorem append (h : Holds lexemes contents) (hmore : Holds others more) :
    Holds (lexemes ++ others) (contents ++ more) := by
  induction h with
  | nil lexemes =>
      cases hmore with
      | nil => exact .nil _
      | cons front hrow hrest =>
          have hlonger := Holds.cons (lexemes ++ front) hrow hrest
          simpa using hlonger
  | cons front hrow _ ih =>
      have hlonger := Holds.cons front hrow ih
      simpa using hlonger

theorem of_row {content : Formula} (h : Row false lexemes content) : Holds lexemes [content] := by
  simpa using Holds.cons [] h (.nil [])

theorem lead (lexeme : Lexeme) (h : Holds lexemes contents) : Holds (lexeme :: lexemes) contents :=
  (Holds.nil [lexeme]).append h

theorem trail (h : Holds lexemes contents) (others : List Lexeme) :
    Holds (lexemes ++ others) contents := by
  have hboth := h.append (.nil others)
  rwa [List.append_nil] at hboth

theorem of_append (h : Holds lexemes (contents ++ more)) : Holds lexemes contents := by
  induction contents generalizing lexemes with
  | nil => exact .nil _
  | cons content contents ih =>
      cases h with
      | cons front hrow hrest => exact .cons front hrow (ih hrest)

theorem exists_row {content : Formula} (h : Holds lexemes contents) (hmem : content ∈ contents) :
    ∃ front own back, lexemes = front ++ own ++ back ∧ Row false own content := by
  induction h with
  | nil => cases hmem
  | @cons front own rest first contents hrow _ ih =>
      rcases List.mem_cons.mp hmem with rfl | hmem
      · exact ⟨front, own, rest, rfl, hrow⟩
      · obtain ⟨before, found, back, rfl, hfound⟩ := ih hmem
        exact ⟨front ++ own ++ before, found, back, by simp, hfound⟩

end Holds

mutual

theorem Argument.holds {inIndex : Bool} {lexemes : List Lexeme} {content : Formula}
    (h : Argument inIndex lexemes content) : Holds lexemes [content] := by
  cases h with
  | braced _ hrow _ => exact ((Holds.of_row hrow).lead _).trail _
  | bare _ hnucleus => exact .of_row hnucleus.row

theorem Arguments.holds {inIndex : Bool} {lexemes : List Lexeme} {contents : List Formula} :
    Arguments inIndex lexemes contents → Holds lexemes contents
  | .nil => .nil []
  | .cons hargument hrest => hargument.holds.append hrest.holds

theorem Grid.holds {environment : Environment} {lexemes : List Lexeme}
    {rows : List (List Formula)} : Grid environment lexemes rows → Holds lexemes rows.flatten
  | .last hrow => .of_row hrow
  | .column _ hrow _ hrest => (Holds.of_row hrow).append (hrest.holds.lead _)
  | .row hrow _ hrest => (Holds.of_row hrow).append (hrest.holds.lead _)

end

theorem Grid.holds_dropEmptyRow {environment : Environment} {lexemes : List Lexeme}
    {rows : List (List Formula)} (h : Grid environment lexemes rows) :
    Holds lexemes (dropEmptyRow rows).flatten := by
  have hcells := h.holds
  rcases List.eq_nil_or_concat rows with rfl | ⟨front, last, rfl⟩
  · exact hcells
  rw [List.concat_eq_append] at hcells ⊢
  by_cases hlast : last = [[]]
  · subst hlast
    rw [dropEmptyRow_concat]
    rw [List.flatten_append] at hcells
    exact hcells.of_append
  · rwa [dropEmptyRow_of_ne _ hlast]

/-- What lies below the atom, in the order of the source: the index of a root stands in front of its
radicand, and a subscript may stand in front of a superscript. -/
def HoldsSlots (lexemes : List Lexeme) (atom : Atom) : Prop :=
  ∃ contents, Holds lexemes contents ∧ contents.Perm atom.slots

theorem Nucleus.holdsSlots {inIndex : Bool} {lexemes : List Lexeme} {atom : Atom}
    (h : Nucleus inIndex lexemes atom) : HoldsSlots lexemes atom := by
  cases h with
  | character | bracketOpen | bracketClose => exact ⟨[], .nil _, .refl _⟩
  | group _ hrow _ => exact ⟨_, ((Holds.of_row hrow).lead _).trail _, .refl _⟩
  | command _ _ _ harguments _ =>
      exact ⟨_, harguments.holds.lead _, by simp [Atom.slots]⟩
  | indexed _ _ _ _ hrow _ harguments _ =>
      refine ⟨_, (((Holds.of_row hrow.outside).lead _).lead _).append (harguments.holds.lead _), ?_⟩
      simpa [Atom.slots] using (List.perm_append_singleton _ _).symm
  | fenced _ _ _ hrow _ _ =>
      exact ⟨_, (((Holds.of_row hrow).lead _).lead _).trail _, .refl _⟩
  | table _ hgrid _ =>
      exact ⟨_, (hgrid.holds_dropEmptyRow.lead _).trail _, by simp [Atom.slots]⟩

theorem Limits.slots_eq {lexemes : List Lexeme} {atom operator : Atom}
    (h : Limits atom lexemes operator) : operator.slots = atom.slots := by
  induction h with
  | nil => rfl
  | cons _ _ _ _ _ ih => exact ih

/-! ## What scripts add to their atom -/

theorem perm_slots_withScript {atom : Atom} {which : Script} (hfree : atom.script which = none)
    (content : Formula) (place : Span) :
    (atom.slots ++ [content]).Perm (atom.withScript which content place).slots := by
  refine (List.perm_append_singleton content atom.slots).trans ?_
  cases which with
  | superscript =>
      have hnone : atom.superscript = none := hfree
      simpa [Atom.withScript, Atom.setScript, Atom.slots, hnone] using List.perm_middle.symm
  | subscript =>
      have hnone : atom.subscript = none := hfree
      simpa [Atom.withScript, Atom.setScript, Atom.slots, hnone] using
        (@List.perm_middle _ content (atom.arguments ++ atom.superscript.toList) _).symm

mutual

theorem Scripts.span_eq {inIndex : Bool} {lexemes : List Lexeme} {atom result : Atom} :
    Scripts inIndex atom lexemes result → atom.span.start ≤ atom.span.stop →
      InOrder atom.span.stop lexemes →
      result.span = ⟨atom.span.start, endOf atom.span.stop lexemes⟩
  | .nil atom, _, _ => rfl
  | @Scripts.cons _ _ _ _ mark lexemes _ _ _ _ _ _ hrest, hle, horder => by
      obtain ⟨hmarked, hothers⟩ := InOrder.append_iff.mp horder
      obtain ⟨hstart, hstop, hargument⟩ := hmarked
      have hend := hargument.le_endOf
      have hspan := hrest.span_eq
      rw [Atom.withScript, Span.cover_of_le (by dsimp only; omega) (by dsimp only; omega)] at hspan
      rw [endOf_append, endOf_cons]
      exact hspan (by dsimp only; omega) hothers

theorem Scripts.holdsSlots {inIndex : Bool} {front lexemes : List Lexeme} {atom result : Atom} :
    Scripts inIndex atom lexemes result → HoldsSlots front atom →
      HoldsSlots (front ++ lexemes) result
  | .nil atom, hatom => by rwa [List.append_nil]
  | @Scripts.cons _ _ _ _ mark lexemes _ content _ _ hfree hargument hrest, hatom => by
      obtain ⟨contents, hcontents, hperm⟩ := hatom
      have hnext := hcontents.append (hargument.holds.lead mark)
      have hslots := (hperm.append_right [content]).trans (perm_slots_withScript hfree content
        ⟨mark.span.start, endOf mark.span.stop lexemes⟩)
      simpa using hrest.holdsSlots ⟨_, hnext, hslots⟩

end

/-! ## Segments -/

/-- The atom is derived from these lexemes alone and spans all of them. -/
structure Segment (lexemes : List Lexeme) (atom : Atom) : Prop where
  ne_nil : lexemes ≠ []
  row : Row false lexemes [atom]
  span_eq : atom.span = extent lexemes
  holdsSlots : HoldsSlots lexemes atom

inductive Segments : List Lexeme → Formula → Prop
  | nil : Segments [] []
  | cons {own rest : List Lexeme} {atom : Atom} {formula : Formula} :
      Segment own atom → Segments rest formula → Segments (own ++ rest) (atom :: formula)

theorem Scripts.segment {inIndex : Bool} {offset : Nat} {mark : Lexeme} {lexemes : List Lexeme}
    {atom : Atom} (h : Scripts inIndex (.scriptBase mark.span.start) (mark :: lexemes) atom)
    (horder : InOrder offset (mark :: lexemes)) : Segment (mark :: lexemes) atom where
  ne_nil := by simp
  row := by simpa using Row.scripted h.outside .nil
  span_eq := h.span_eq (Nat.le_refl _) ⟨Nat.le_refl _, horder.2⟩
  holdsSlots := by
    have hbase : HoldsSlots [] (.scriptBase mark.span.start) := ⟨[], .nil _, .refl _⟩
    exact h.holdsSlots hbase

theorem Nucleus.segment {inIndex : Bool} {offset : Nat} {lexemes limits scripts : List Lexeme}
    {nucleus operator atom : Atom} (hnucleus : Nucleus inIndex lexemes nucleus)
    (hlimits : Limits nucleus limits operator) (hscripts : Scripts inIndex operator scripts atom)
    (horder : InOrder offset (lexemes ++ limits ++ scripts)) :
    Segment (lexemes ++ limits ++ scripts) atom where
  ne_nil := by simp [hnucleus.ne_nil]
  row := by simpa using Row.plain (Items.cons hnucleus.outside hlimits hscripts.outside .nil)
  span_eq := by
    obtain ⟨hfront, hback⟩ := InOrder.append_iff.mp horder
    obtain ⟨hown, hmiddle⟩ := InOrder.append_iff.mp hfront
    have hspan := hnucleus.span_eq
    have hlt := (hown.start_extent hnucleus.ne_nil).2
    have hstop := stop_extent hnucleus.ne_nil offset
    rw [← hstop] at hmiddle
    rw [endOf_append, ← hstop] at hback
    have hoperator := hlimits.span_eq (by rw [hspan]; omega) (by rwa [hspan])
    have hend := hmiddle.le_endOf
    rw [hspan] at hoperator
    have hatom := hscripts.span_eq (by rw [hoperator]; dsimp only; omega) (by rwa [hoperator])
    rw [hatom, hoperator, List.append_assoc, extent_append hnucleus.ne_nil, endOf_append]
  holdsSlots := by
    obtain ⟨contents, hcontents, hperm⟩ := hnucleus.holdsSlots
    rw [← hlimits.slots_eq] at hperm
    exact hscripts.holdsSlots ⟨contents, hcontents.trail limits, hperm⟩

mutual

theorem Items.segments {inIndex : Bool} {offset : Nat} {lexemes : List Lexeme}
    {formula : Formula} :
    Items inIndex lexemes formula → InOrder offset lexemes → Segments lexemes formula
  | .nil, _ => .nil
  | .cons hnucleus hlimits hscripts hitems, horder => by
      obtain ⟨hown, hrest⟩ := InOrder.append_iff.mp horder
      exact .cons (hnucleus.segment hlimits hscripts hown) (hitems.segments hrest)

theorem Row.segments {inIndex : Bool} {offset : Nat} {lexemes : List Lexeme} {formula : Formula}
    (h : Row inIndex lexemes formula) (horder : InOrder offset lexemes) :
    Segments lexemes formula := by
  cases h with
  | plain hitems => exact hitems.segments horder
  | scripted hscripts hitems =>
      obtain ⟨hown, hrest⟩ := InOrder.append_iff.mp horder
      exact .cons (hscripts.segment hown) (hitems.segments hrest)

end

namespace Segment

variable {offset : Nat} {lexemes : List Lexeme} {atom : Atom}

theorem bounds (h : Segment lexemes atom) (horder : InOrder offset lexemes) :
    offset ≤ atom.span.start ∧ atom.span.start < atom.span.stop ∧
      atom.span.stop = endOf offset lexemes := by
  rw [h.span_eq]
  obtain ⟨hstart, hlt⟩ := horder.start_extent h.ne_nil
  exact ⟨hstart, hlt, stop_extent h.ne_nil offset⟩

theorem inOrder (h : Segment lexemes atom) (horder : InOrder offset lexemes) :
    InOrder atom.span.start lexemes ∧ endOf atom.span.start lexemes = atom.span.stop := by
  rw [h.span_eq]
  exact ⟨horder.of_extent, (stop_extent h.ne_nil _).symm⟩

theorem relocate {twins : List Lexeme} (h : Segment lexemes atom)
    (hsame : SameTokens twins lexemes) :
    ∃ found : Atom, Row false twins [found] ∧ found.erase = atom.erase := by
  obtain ⟨formula, hrow, hformula⟩ := h.row.relocate hsame
  rw [Formula.erase_cons, Formula.erase_nil, Formula.erase_eq_map] at hformula
  obtain ⟨found, rfl, hfound⟩ := List.map_eq_singleton_iff.mp hformula
  exact ⟨found, hrow, hfound⟩

theorem exists_row {slot : Formula} (h : Segment lexemes atom) (hslot : slot ∈ atom.slots) :
    ∃ front own back, lexemes = front ++ own ++ back ∧ Row false own slot := by
  obtain ⟨contents, hcontents, hperm⟩ := h.holdsSlots
  exact hcontents.exists_row (hperm.mem_iff.mpr hslot)

end Segment

namespace Segments

variable {offset : Nat} {lexemes : List Lexeme} {formula : Formula}

theorem exists_segment {atom : Atom} (h : Segments lexemes formula) (hatom : atom ∈ formula) :
    ∃ front own back, lexemes = front ++ own ++ back ∧ Segment own atom := by
  induction h with
  | nil => cases hatom
  | @cons own rest first formula hsegment _ ih =>
      rcases List.mem_cons.mp hatom with rfl | hatom
      · exact ⟨[], own, rest, by simp, hsegment⟩
      · obtain ⟨front, found, back, rfl, hfound⟩ := ih hatom
        exact ⟨own ++ front, found, back, by simp, hfound⟩

theorem bounds (h : Segments lexemes formula) (horder : InOrder offset lexemes) :
    ∀ atom ∈ formula, offset ≤ atom.span.start ∧ atom.span.stop ≤ endOf offset lexemes := by
  induction h generalizing offset with
  | nil => nofun
  | cons hsegment _ ih =>
      obtain ⟨hown, hrest⟩ := InOrder.append_iff.mp horder
      obtain ⟨hstart, hlt, hstop⟩ := hsegment.bounds hown
      have hfirst := hown.le_endOf
      have hend := hrest.le_endOf
      have hothers := ih hrest
      rw [endOf_append, List.forall_mem_cons]
      refine ⟨⟨hstart, by omega⟩, fun atom hatom => ?_⟩
      obtain ⟨hlow, hhigh⟩ := hothers atom hatom
      exact ⟨by omega, hhigh⟩

theorem pairwise (h : Segments lexemes formula) (horder : InOrder offset lexemes) :
    formula.Pairwise fun a b => a.span.stop ≤ b.span.start := by
  induction h generalizing offset with
  | nil => exact .nil
  | cons hsegment hsegments ih =>
      obtain ⟨hown, hrest⟩ := InOrder.append_iff.mp horder
      refine .cons (fun atom hatom => ?_) (ih hrest)
      rw [(hsegment.bounds hown).2.2]
      exact (hsegments.bounds hrest atom hatom).1

theorem exists_atom {lexeme : Lexeme} (h : Segments lexemes formula)
    (horder : InOrder offset lexemes) (hlexeme : lexeme ∈ lexemes) :
    ∃ atom ∈ formula, atom.span.start ≤ lexeme.span.start ∧
      lexeme.span.stop ≤ atom.span.stop := by
  induction h generalizing offset with
  | nil => cases hlexeme
  | @cons own rest atom formula hsegment _ ih =>
      obtain ⟨hown, hrest⟩ := InOrder.append_iff.mp horder
      rcases List.mem_append.mp hlexeme with hlexeme | hlexeme
      · refine ⟨atom, List.mem_cons_self, ?_⟩
        obtain ⟨hordered, hend⟩ := hsegment.inOrder hown
        obtain ⟨hlow, -, hhigh⟩ := hordered.of_mem hlexeme
        exact ⟨hlow, by rwa [← hend]⟩
      · obtain ⟨found, hfound, hinside⟩ := ih hrest hlexeme
        exact ⟨found, List.mem_cons_of_mem _ hfound, hinside⟩

end Segments

theorem Row.exists_row {offset : Nat} {lexemes : List Lexeme} {formula row : Formula}
    (hrow : Row false lexemes formula) (horder : InOrder offset lexemes)
    (h : Formula.HasRow formula row) :
    ∃ front own back, lexemes = front ++ own ++ back ∧ Row false own row := by
  induction h generalizing offset lexemes with
  | self => exact ⟨[], lexemes, [], by simp, hrow⟩
  | deeper hatom hslot _ ih =>
      obtain ⟨front, own, back, rfl, hsegment⟩ := (hrow.segments horder).exists_segment hatom
      obtain ⟨before, content, after, rfl, hcontent⟩ := hsegment.exists_row hslot
      obtain ⟨start, found, rest, rfl, hfound⟩ := ih hcontent horder.middle.2.1.middle.2.1
      exact ⟨front ++ before ++ start, found, rest ++ after ++ back, by simp, hfound⟩

/-! ## Disjoint formulas -/

theorem Row.bounds {offset : Nat} {front own back : List Lexeme} {row : Formula}
    (hrow : Row false own row) (horder : InOrder offset (front ++ own ++ back)) :
    ∀ atom ∈ row, offset ≤ atom.span.start ∧
      atom.span.stop ≤ endOf offset (front ++ own ++ back) := by
  intro atom hatom
  obtain ⟨hlow, hown, hhigh⟩ := horder.middle
  obtain ⟨hstart, hstop⟩ := (hrow.segments hown).bounds hown atom hatom
  exact ⟨Nat.le_trans hlow hstart, Nat.le_trans hstop hhigh⟩

theorem Holds.pairwise_apart {offset : Nat} {lexemes : List Lexeme} {contents : List Formula}
    (h : Holds lexemes contents) (horder : InOrder offset lexemes) :
    contents.Pairwise Formula.Apart := by
  induction h generalizing offset with
  | nil => exact .nil
  | @cons front own rest content contents hrow hrest ih =>
      obtain ⟨hleft, hright⟩ := InOrder.append_iff.mp horder
      refine .cons (fun other hother => .inl fun a ha b hb => ?_) (ih hright)
      obtain ⟨before, found, after, rfl, hfound⟩ := hrest.exists_row hother
      have hstart := (hfound.bounds hright b hb).1
      rw [← List.append_nil (front ++ own)] at hleft
      have hend := (hrow.bounds hleft a ha).2
      rw [List.append_nil] at hend
      exact Nat.le_trans hend hstart

namespace Segment

variable {offset : Nat} {lexemes : List Lexeme} {atom : Atom}

theorem inside {slot row : Formula} (h : Segment lexemes atom) (horder : InOrder offset lexemes)
    (hslot : slot ∈ atom.slots) (hbelow : Formula.HasRow slot row) :
    ∀ inner ∈ row, inner.span.Inside atom.span := by
  obtain ⟨hordered, hend⟩ := h.inOrder horder
  obtain ⟨front, own, back, rfl, hown⟩ := h.exists_row hslot
  obtain ⟨start, found, rest, rfl, hfound⟩ := hown.exists_row horder.middle.2.1 hbelow
  have hsame : front ++ (start ++ found ++ rest) ++ back =
      front ++ start ++ found ++ (rest ++ back) := by simp
  rw [hsame] at hordered hend
  intro inner hinner
  have hbounds := hfound.bounds hordered inner hinner
  rwa [hend] at hbounds

theorem pairwise_apart (h : Segment lexemes atom) (horder : InOrder offset lexemes) :
    atom.slots.Pairwise Formula.Apart := by
  obtain ⟨contents, hcontents, hperm⟩ := h.holdsSlots
  exact (hperm.pairwise_iff Formula.Apart.symm).mp (hcontents.pairwise_apart horder)

end Segment

end Grammar

end TexMath
