import TexMath.Proofs.Formula.Erasure
import TexMath.Proofs.Reading.Displacement
import TexMath.Proofs.Token.Joins

/-!
# Space between tokens

White space or a comment in front of a token, or behind one, moves what stands behind it and does
nothing else: the source is read as a formula that differs in spans alone, or has errors of the same
causes in the same order.
-/

namespace TexMath

variable {front gap back : String} {options : ReadingOptions} {lexeme : Lexeme}

def Displacement.inserted (place count : Nat) : Displacement where
  start offset := if offset < place then offset else offset + count
  stop _ _ := True
  strictMono := by
    intro a b hlt
    dsimp only
    split <;> split <;> omega
  stop_start _ := trivial
  stop_max _ _ := trivial

namespace Displacement

variable {place count : Nat} {items : List Item}

theorem inserted_of_lt (h : ∀ item ∈ items, item.span.start < place) :
    List.Forall₂ (inserted place count).Items items items := by
  rw [List.forall₂_same]
  intro item hitem
  have hstart : (inserted place count).Spans item.span item.span :=
    ⟨(if_pos (h item hitem)).symm, trivial⟩
  cases item with
  | lexeme lexeme => exact .lexeme ⟨rfl, rfl, hstart⟩
  | fault error => exact .fault ⟨rfl, hstart⟩

theorem inserted_of_le (h : ∀ item ∈ items, place ≤ item.span.start) :
    List.Forall₂ (inserted place count).Items items (items.map (Item.shift count)) := by
  rw [List.forall₂_map_right_iff, List.forall₂_same]
  intro item hitem
  have hstart : (inserted place count).Spans item.span (item.span.shift count) :=
    ⟨(if_neg (Nat.not_lt.mpr (h item hitem))).symm, trivial⟩
  cases item with
  | lexeme lexeme => exact .lexeme ⟨rfl, rfl, hstart⟩
  | fault error => exact .fault ⟨rfl, hstart⟩

end Displacement

namespace Pairing

variable {P : Pairing}
  (hcontents : ∀ f f' : Formula, P.contents f f' → Formula.erase f = Formula.erase f')
include hcontents

theorem erase_eq_of_atoms {a a' : Atom} (h : P.Atoms a a') : a.erase = a'.erase := by
  have hsuperscript := h.map_script hcontents .superscript
  have hsubscript := h.map_script hcontents .subscript
  have harguments := map_eq_map_of_forall₂ hcontents h.arguments
  have hrows := map_eq_map_of_forall₂ (fun _ _ hrow => map_eq_map_of_forall₂ hcontents hrow) h.rows
  simp only [Atom.script] at hsuperscript hsubscript
  simp only [Atom.erase_eq, Formula.eraseAll_eq_map, Formula.eraseScript_eq_map,
    Formula.eraseRows_eq_map, h.kind, h.nucleus, h.boundaries, harguments, hrows, hsuperscript,
    hsubscript]

theorem erase_eq_of_rows {f f' : Formula} (h : P.Rows f f') :
    Formula.erase f = Formula.erase f' := by
  induction h with
  | nil => rfl
  | cons hatom _ ih =>
      rw [Formula.erase_cons, Formula.erase_cons, erase_eq_of_atoms hcontents hatom, ih]

end Pairing

namespace Formula

theorem readAll_gap (hallows : options.allowEmpty = true) (hgap : Text.IsGap gap)
    (hlexeme : .lexeme lexeme ∈ items (front ++ back)) (htoken : lexeme.token ≠ .comment)
    (hplace : lexeme.span.start = front.utf8ByteSize ∨ lexeme.span.stop = front.utf8ByteSize) :
    (∀ formula, readAll (front ++ back) options = .ok formula →
      ∃ formula', readAll (front ++ gap ++ back) options = .ok formula' ∧
        alike formula formula' = true) ∧
    ∀ errors, readAll (front ++ back) options = .error errors →
      ∃ errors', readAll (front ++ gap ++ back) options = .error errors' ∧
        errors'.map ParseError.cause = errors.map ParseError.cause := by
  let d := Displacement.inserted front.utf8ByteSize gap.utf8ByteSize
  let same (f f' : Formula) : Prop := erase f = erase f'
  obtain ⟨before, after, hitems, hitems', hbefore, hafter⟩ :=
    significantItems_insert hgap hlexeme htoken hplace
  have hmoved : List.Forall₂ d.Items (significantItems (front ++ back))
      (significantItems (front ++ gap ++ back)) := by
    rw [hitems, hitems']
    exact List.rel_append (Displacement.inserted_of_lt hbefore) (Displacement.inserted_of_le hafter)
  have hsize : (front ++ gap ++ back).utf8ByteSize = d.start (front ++ back).utf8ByteSize := by
    simp only [d, Displacement.inserted, String.utf8ByteSize_append]
    split <;> omega
  have hsame : ∀ {f f' : Formula}, (d.pairing same).Rows f f' → same f f' :=
    Pairing.erase_eq_of_rows fun _ _ => id
  have houtcomes := Displacement.runReading_displaced hsame hmoved hsize trivial hallows
  have hresults := Displacement.readAll_of_outcomes houtcomes
  constructor
  · intro formula hread
    obtain ⟨formula', hread', hrows⟩ := hresults.1 formula hread
    exact ⟨formula', hread', (alike_iff _ _).mpr (hsame hrows)⟩
  · intro errors hread
    obtain ⟨errors', hread', herrors⟩ := hresults.2 errors hread
    exact ⟨errors', hread', Displacement.Errors.causes herrors⟩

theorem script_gap :
    ∃ formula formula', readAll "x^2" = .ok formula ∧ readAll "x^% two\n2" = .ok formula' ∧
      alike formula formula' = true := by
  have hread : readAll "x^2" = .ok
      [{ kind := .ordinary, nucleus := "x", span := ⟨0, 3⟩
         superscript := some [.symbol .ordinary "2" ⟨2, 3⟩] }] := by
    decide +kernel
  have hlexeme : .lexeme ⟨.superscriptMark, ⟨1, 2⟩, "^"⟩ ∈ items ("x^" ++ "2") := by
    decide +kernel
  have hgap : Text.IsGap "% two\n" := .inr ⟨[' ', 't', 'w', 'o'], rfl, by decide⟩
  have hplace : (⟨1, 2⟩ : Span).start = "x^".utf8ByteSize ∨
      (⟨1, 2⟩ : Span).stop = "x^".utf8ByteSize := .inr rfl
  have hresults := @readAll_gap "x^" _ "2" {} _ rfl hgap hlexeme (by decide) hplace
  obtain ⟨formula', hread', halike⟩ := hresults.1 _ hread
  exact ⟨_, formula', hread, hread', halike⟩

end Formula

end TexMath
