import TexMath.Proofs.Grammar.Basic
import TexMath.Proofs.Token.Spelling

/-!
# How the items lie in a source

The items of a source tile it: their texts follow one another with at most white space between them,
and a span is the place of a text.  A part of the source that begins with one significant token and
ends with another therefore scans to the tokens that it has in its place.
-/

namespace TexMath

open Text

/-- The items tile the text, which starts at the offset. -/
inductive Tiles : Nat → List Char → List Item → Prop
  | nil {offset : Nat} {spaces : List Char} :
      (∀ c ∈ spaces, isSpacing c = true) → Tiles offset spaces []
  | lexeme {offset : Nat} {spaces rest : List Char} {lexeme : Lexeme} {items : List Item} :
      (∀ c ∈ spaces, isSpacing c = true) →
      Token.Spelling lexeme.token lexeme.text.toList rest →
      lexeme.span.start = offset + width spaces →
      lexeme.span.stop = lexeme.span.start + width lexeme.text.toList →
      Tiles lexeme.span.stop rest items →
      Tiles offset (spaces ++ (lexeme.text.toList ++ rest)) (.lexeme lexeme :: items)
  | fault {offset : Nat} {spaces text rest : List Char} {error : ParseError} {items : List Item} :
      (∀ c ∈ spaces, isSpacing c = true) → text ≠ [] →
      Tiles (offset + width spaces + width text) rest items →
      Tiles offset (spaces ++ (text ++ rest)) (.fault error :: items)

namespace Tiles

variable {offset : Nat} {chars : List Char} {items : List Item}

theorem prepend {spaces : List Char} (hspaces : ∀ c ∈ spaces, isSpacing c = true)
    (h : Tiles (offset + width spaces) chars items) : Tiles offset (spaces ++ chars) items := by
  have hboth : ∀ others : List Char, (∀ c ∈ others, isSpacing c = true) →
      ∀ c ∈ spaces ++ others, isSpacing c = true := by
    intro others hothers
    exact List.forall_mem_append.mpr ⟨hspaces, hothers⟩
  cases h with
  | nil hnext => exact .nil (hboth _ hnext)
  | lexeme hnext hspelling hstart hstop hrest =>
      rw [← List.append_assoc]
      exact .lexeme (hboth _ hnext) hspelling (by rw [hstart, width_append, Nat.add_assoc]) hstop
        hrest
  | fault hnext hne hrest =>
      rw [← List.append_assoc]
      refine .fault (hboth _ hnext) hne ?_
      rwa [width_append, ← Nat.add_assoc]

end Tiles

theorem Cursor.items_tile (cursor : Cursor) {bound : Nat} (hbound : cursor.rest.length ≤ bound) :
    Tiles cursor.offset cursor.rest (cursor.items bound) := by
  induction bound generalizing cursor with
  | zero =>
      rw [List.length_eq_zero_iff.mp (Nat.le_zero.mp hbound)]
      exact .nil (by simp)
  | succ bound ih =>
      by_cases hrest : cursor.rest = []
      · rw [Cursor.items_of_nil hrest, hrest]
        exact .nil (by simp)
      have hlt := Cursor.length_scan_lt hrest
      have htiles := ih cursor.scan.2 (by omega)
      rw [Cursor.items_succ hrest]
      generalize hitem : cursor.scan.1 = item, hafter : cursor.scan.2 = after at htiles
      have hscanned := Cursor.scan_scanned hrest
      rw [hitem, hafter] at hscanned
      cases hscanned with
      | @lexeme lexeme middle _ spaces hpasses hspelling hspan hbehind hspaces =>
          rw [hbehind.offset] at htiles
          have hmiddle := htiles.prepend hspaces
          rw [← hbehind.rest] at hmiddle
          rw [hpasses.span_eq] at hspan
          rw [hpasses.rest]
          refine .lexeme (List.forall_mem_nil _) hspelling (by simp [hspan]) (by simp [hspan]) ?_
          rwa [hspan, ← hpasses.offset]
      | @fault error text _ hpasses hne =>
          rw [hpasses.rest]
          refine .fault (List.forall_mem_nil _) hne ?_
          rwa [width_nil, Nat.add_zero, ← hpasses.offset]

theorem items_tile (source : String) : Tiles 0 source.toList (items source) :=
  (Cursor.start source).items_tile (Nat.le_refl _)

/-! ## The order of the lexemes -/

def Lexeme.InOrder : Nat → List Lexeme → Prop
  | _, [] => True
  | offset, lexeme :: lexemes =>
      offset ≤ lexeme.span.start ∧ lexeme.span.start < lexeme.span.stop ∧
        InOrder lexeme.span.stop lexemes

namespace Lexeme.InOrder

variable {offset earlier : Nat} {front back lexemes : List Lexeme}

theorem mono (h : InOrder offset lexemes) (hle : earlier ≤ offset) : InOrder earlier lexemes := by
  cases lexemes with
  | nil => trivial
  | cons lexeme lexemes => exact ⟨Nat.le_trans hle h.1, h.2⟩

theorem append_iff :
    InOrder offset (front ++ back) ↔ InOrder offset front ∧ InOrder (endOf offset front) back := by
  induction front generalizing offset with
  | nil => simp [InOrder]
  | cons lexeme front ih => simp [InOrder, ih, and_assoc]

theorem le_endOf (h : InOrder offset lexemes) : offset ≤ endOf offset lexemes := by
  induction lexemes generalizing offset with
  | nil => exact Nat.le_refl _
  | cons lexeme lexemes ih =>
      obtain ⟨hstart, hstop, hrest⟩ := h
      have := ih hrest
      rw [endOf_cons]
      omega

theorem of_mem {lexeme : Lexeme} (h : InOrder offset lexemes) (hmem : lexeme ∈ lexemes) :
    offset ≤ lexeme.span.start ∧ lexeme.span.start < lexeme.span.stop ∧
      lexeme.span.stop ≤ endOf offset lexemes := by
  induction lexemes generalizing offset with
  | nil => cases hmem
  | cons first lexemes ih =>
      obtain ⟨hstart, hstop, hrest⟩ := h
      rw [endOf_cons]
      have hend := hrest.le_endOf
      rcases List.mem_cons.mp hmem with rfl | hmem
      · exact ⟨hstart, hstop, hend⟩
      · obtain ⟨hfirst, hlexeme⟩ := ih hrest hmem
        exact ⟨by omega, hlexeme⟩

theorem middle {own : List Lexeme} (h : InOrder offset (front ++ own ++ back)) :
    offset ≤ endOf offset front ∧ InOrder (endOf offset front) own ∧
      endOf (endOf offset front) own ≤ endOf offset (front ++ own ++ back) := by
  obtain ⟨hleft, hback⟩ := append_iff.mp h
  obtain ⟨hfront, hown⟩ := append_iff.mp hleft
  refine ⟨hfront.le_endOf, hown, ?_⟩
  rw [endOf_append, ← endOf_append]
  exact hback.le_endOf

end Lexeme.InOrder

namespace Tiles

variable {offset : Nat} {chars : List Char} {items back : List Item}

theorem inOrder {lexemes : List Lexeme} (h : Tiles offset chars items)
    (hlexemes : items.filter Item.isSignificant = lexemes.map .lexeme) :
    Lexeme.InOrder offset lexemes := by
  induction h generalizing lexemes with
  | nil =>
      obtain rfl : lexemes = [] := by simpa using hlexemes.symm
      trivial
  | @lexeme offset spaces rest lexeme items _ hspelling hstart hstop _ ih =>
      have hpos : 0 < width lexeme.text.toList := hspelling.width_pos
      by_cases hsignificant : (Item.lexeme lexeme).isSignificant = true
      · rw [List.filter_cons_of_pos hsignificant] at hlexemes
        obtain ⟨first, others, rfl, hfirst, hothers⟩ := List.map_eq_cons_iff.mp hlexemes.symm
        cases hfirst
        exact ⟨by omega, by omega, ih hothers.symm⟩
      · rw [List.filter_cons_of_neg hsignificant] at hlexemes
        exact (ih hlexemes).mono (by omega)
  | fault =>
      rw [List.filter_cons_of_pos rfl] at hlexemes
      obtain ⟨_, _, _, hfirst, _⟩ := List.map_eq_cons_iff.mp hlexemes.symm
      cases hfirst

theorem lexeme_bounds {lexeme : Lexeme} (h : Tiles offset chars items)
    (hmem : .lexeme lexeme ∈ items) :
    offset ≤ lexeme.span.start ∧ lexeme.span.start < lexeme.span.stop := by
  induction h with
  | nil => cases hmem
  | @lexeme offset spaces rest first items _ hspelling hstart hstop _ ih =>
      have hpos : 0 < width first.text.toList := hspelling.width_pos
      rcases List.mem_cons.mp hmem with heq | hmem
      · cases heq
        omega
      · obtain ⟨hlow, hlt⟩ := ih hmem
        omega
  | fault _ _ _ ih =>
      rcases List.mem_cons.mp hmem with heq | hmem
      · cases heq
      · obtain ⟨hlow, hlt⟩ := ih hmem
        omega

/-! ## Slices -/

theorem drop {first : Lexeme} {front : List Item} (h : Tiles offset chars items)
    (hitems : items.filter Item.isSignificant = front ++ .lexeme first :: back) :
    ∃ passed rest others, chars = passed ++ rest ∧ offset + width passed = first.span.start ∧
      Tiles first.span.start rest others ∧
        others.filter Item.isSignificant = .lexeme first :: back := by
  induction h generalizing front with
  | nil => simp at hitems
  | @lexeme offset spaces rest lexeme items hspaces hspelling hstart hstop htiles ih =>
      -- Some item of the rest is the lexeme, unless it is this one.
      have hlater : ∀ others, items.filter Item.isSignificant = others ++ .lexeme first :: back →
          ∃ passed rest' others, spaces ++ (lexeme.text.toList ++ rest) = passed ++ rest' ∧
            offset + width passed = first.span.start ∧ Tiles first.span.start rest' others ∧
              others.filter Item.isSignificant = .lexeme first :: back := by
        intro others hothers
        obtain ⟨passed, rest', others, rfl, hoffset, hrest⟩ := ih hothers
        refine ⟨spaces ++ (lexeme.text.toList ++ passed), rest', others, by simp, ?_, hrest⟩
        simp only [width_append]
        omega
      by_cases hsignificant : (Item.lexeme lexeme).isSignificant = true
      · rw [List.filter_cons_of_pos hsignificant] at hitems
        cases front with
        | nil =>
            obtain ⟨hfirst, hothers⟩ := List.cons.inj hitems
            cases hfirst
            refine ⟨spaces, _, .lexeme first :: items, rfl, hstart.symm, ?_, ?_⟩
            · exact Tiles.lexeme (List.forall_mem_nil _) hspelling (by simp) hstop htiles
            · rw [List.filter_cons_of_pos hsignificant, hothers]
        | cons item front => exact hlater front (List.cons.inj hitems).2
      · rw [List.filter_cons_of_neg hsignificant] at hitems
        exact hlater front hitems
  | @fault offset spaces text rest error items hspaces hne htiles ih =>
      rw [List.filter_cons_of_pos rfl] at hitems
      cases front with
      | nil => cases (List.cons.inj hitems).1
      | cons item front =>
          obtain ⟨passed, rest', others, rfl, hoffset, hrest⟩ := ih (List.cons.inj hitems).2
          refine ⟨spaces ++ (text ++ passed), rest', others, by simp, ?_, hrest⟩
          simp only [width_append]
          omega

theorem take {own : List Lexeme} (h : Tiles offset chars items)
    (hitems : items.filter Item.isSignificant = own.map .lexeme ++ back) :
    ∃ taken rest, chars = taken ++ rest ∧ offset + width taken = Lexeme.endOf offset own ∧
      Lexes (taken.dropWhile isSpacing) (own.map Lexeme.token) := by
  induction h generalizing own with
  | nil =>
      obtain rfl : own = [] := by
        simpa using (List.append_eq_nil_iff.mp hitems.symm).1
      exact ⟨[], _, rfl, rfl, .nil⟩
  | @lexeme offset spaces rest lexeme items hspaces hspelling hstart hstop _ ih =>
      cases own with
      | nil => exact ⟨[], _, rfl, rfl, .nil⟩
      | cons first own =>
          by_cases htrivia : lexeme.token.isTrivia = true
          · rw [List.filter_cons_of_neg (by simpa [Item.isSignificant] using htrivia)] at hitems
            obtain ⟨taken, rest', rfl, hend, hlexes⟩ := ih hitems
            refine ⟨spaces ++ (lexeme.text.toList ++ taken), rest', by simp, ?_, ?_⟩
            · rw [Lexeme.endOf_cons] at hend ⊢
              simp only [width_append]
              omega
            · rw [dropWhile_spacing hspaces]
              exact hspelling.of_append.lexes_trivia htrivia hlexes
          · rw [Bool.not_eq_true] at htrivia
            rw [List.filter_cons_of_pos (by simpa [Item.isSignificant] using htrivia)] at hitems
            obtain ⟨hfirst, hothers⟩ := List.cons.inj hitems
            cases hfirst
            obtain ⟨taken, rest', rfl, hend, hlexes⟩ := ih hothers
            refine ⟨spaces ++ (lexeme.text.toList ++ taken), rest', by simp, ?_, ?_⟩
            · rw [Lexeme.endOf_cons, ← hend]
              simp only [width_append]
              omega
            · rw [dropWhile_spacing hspaces]
              exact hspelling.of_append.lexes_cons htrivia hlexes
  | fault =>
      cases own with
      | nil => exact ⟨[], _, rfl, rfl, .nil⟩
      | cons first own =>
          rw [List.filter_cons_of_pos rfl] at hitems
          cases (List.cons.inj hitems).1

end Tiles

/-- The slice of the source that the span covers, both ends of which lie between characters. -/
def Span.Covers (span : Span) (source slice : String) : Prop :=
  ∃ before after : String, source = before ++ slice ++ after ∧
    span.start = before.utf8ByteSize ∧ span.stop = span.start + slice.utf8ByteSize

def Lexeme.extent : List Lexeme → Span
  | [] => {}
  | first :: rest => ⟨first.span.start, endOf first.span.stop rest⟩

theorem significantItems_slice {source : String} {front own back : List Lexeme} (hne : own ≠ [])
    (h : significantItems source = (front ++ own ++ back).map .lexeme) :
    ∃ slice : String, (Lexeme.extent own).Covers source slice ∧ ∃ twins : List Lexeme,
      significantItems slice = twins.map .lexeme ∧
        twins.map Lexeme.token = own.map Lexeme.token := by
  obtain ⟨first, own, rfl⟩ := List.exists_cons_of_ne_nil hne
  have hsplit : (items source).filter Item.isSignificant =
      front.map .lexeme ++ .lexeme first :: (own.map .lexeme ++ back.map .lexeme) := by
    simpa [significantItems] using h
  obtain ⟨passed, rest, items, hpassed, hstart, htiles, hitems⟩ := (items_tile source).drop hsplit
  have hown : items.filter Item.isSignificant =
      (first :: own).map .lexeme ++ back.map .lexeme := hitems
  obtain ⟨taken, after, rfl, hend, hlexes⟩ := htiles.take hown
  have hlexes' : Lexes (String.ofList taken).toList ((first :: own).map Lexeme.token) := by
    rw [String.toList_ofList]
    exact .of_dropWhile hlexes
  refine ⟨String.ofList taken, ⟨String.ofList passed, String.ofList after, ?_, ?_, ?_⟩,
    significantItems_of_lexes hlexes'⟩
  · apply String.toList_inj.mp
    simp [hpassed]
  · rw [← width_toList, String.toList_ofList, Lexeme.extent, ← hstart, Nat.zero_add]
  · rw [← width_toList, String.toList_ofList, Lexeme.extent, ← Lexeme.endOf_cons _ first own, hend]

theorem inOrder_of_significantItems {source : String} {lexemes : List Lexeme}
    (h : significantItems source = lexemes.map .lexeme) : Lexeme.InOrder 0 lexemes :=
  (items_tile source).inOrder h

/-! ## Nothing else is in a source -/

def Span.Contains (span : Span) (offset : Nat) : Prop :=
  span.start ≤ offset ∧ offset < span.stop

def SpacingAt (source : String) (byte : Nat) : Prop :=
  ∃ front c back, source.toList = front ++ c :: back ∧ width front = byte ∧ isSpacing c = true

def InComment (source : String) (byte : Nat) : Prop :=
  ∃ lexeme, .lexeme lexeme ∈ items source ∧ lexeme.token = .comment ∧ lexeme.span.Contains byte

theorem utf8Size_of_isSpacing {c : Char} (h : isSpacing c = true) : c.utf8Size = 1 := by
  simp only [isSpacing, Bool.or_eq_true, beq_iff_eq] at h
  rcases h with (((rfl | rfl) | rfl) | rfl) | rfl <;> decide

theorem exists_spacing {spaces : List Char} (hspaces : ∀ c ∈ spaces, isSpacing c = true)
    (rest : List Char) {offset byte : Nat} (hlow : offset ≤ byte)
    (hhigh : byte < offset + width spaces) :
    ∃ front c back, spaces ++ rest = front ++ c :: back ∧ offset + width front = byte ∧
      isSpacing c = true := by
  induction spaces generalizing offset with
  | nil =>
      rw [width_nil] at hhigh
      omega
  | cons c spaces ih =>
      rw [List.forall_mem_cons] at hspaces
      have hsize := utf8Size_of_isSpacing hspaces.1
      rw [width_cons, hsize] at hhigh
      by_cases hfirst : offset = byte
      · exact ⟨[], c, spaces ++ rest, rfl, hfirst, hspaces.1⟩
      · have hnext : offset + 1 ≤ byte := by omega
        obtain ⟨front, space, back, hsplit, hfront, hspace⟩ := ih hspaces.2 hnext (by omega)
        exact ⟨c :: front, space, back, by rw [List.cons_append, hsplit, List.cons_append],
          by rw [width_cons]; omega, hspace⟩

theorem Tiles.covers {offset byte : Nat} {chars : List Char} {items : List Item}
    (h : Tiles offset chars items) (hclear : ∀ error, .fault error ∉ items)
    (hlow : offset ≤ byte) (hhigh : byte < offset + width chars) :
    (∃ front c back, chars = front ++ c :: back ∧ offset + width front = byte ∧
      isSpacing c = true) ∨
    ∃ lexeme, .lexeme lexeme ∈ items ∧ lexeme.token ≠ .blank ∧ lexeme.span.Contains byte := by
  induction h with
  | nil hspaces =>
      left
      simpa using exists_spacing hspaces [] hlow hhigh
  | @lexeme offset spaces rest lexeme items hspaces hspelling hstart hstop _ ih =>
      simp only [width_append] at hhigh
      by_cases hlead : byte < offset + width spaces
      · exact .inl (exists_spacing hspaces _ hlow hlead)
      by_cases htext : byte < lexeme.span.stop
      · by_cases hblank : lexeme.token = .blank
        · rw [hblank] at hspelling
          have hboth := List.forall_mem_append.mpr ⟨hspaces, hspelling.isSpacing_of_blank⟩
          left
          rw [← List.append_assoc]
          exact exists_spacing hboth _ hlow (by rw [width_append]; omega)
        · exact .inr ⟨lexeme, List.mem_cons_self, hblank, by omega, htext⟩
      · obtain ⟨front, c, back, rfl, hfront, hc⟩ | ⟨found, hfound, hcontains⟩ :=
          ih (fun error herror => hclear error (List.mem_cons_of_mem _ herror)) (by omega)
            (by omega)
        · refine .inl ⟨spaces ++ (lexeme.text.toList ++ front), c, back, by simp, ?_, hc⟩
          simp only [width_append]
          omega
        · exact .inr ⟨found, List.mem_cons_of_mem _ hfound, hcontains⟩
  | fault => exact absurd List.mem_cons_self (hclear _)

theorem covered_of_significantItems {source : String} {lexemes : List Lexeme} {byte : Nat}
    (h : significantItems source = lexemes.map .lexeme) (hbyte : byte < source.utf8ByteSize) :
    SpacingAt source byte ∨ InComment source byte ∨
      ∃ lexeme ∈ lexemes, lexeme.span.Contains byte := by
  have hclear := significantItems_eq_lexemes_iff.mp ⟨lexemes, h⟩
  rcases (items_tile source).covers hclear (Nat.zero_le byte) (by rwa [width_toList, Nat.zero_add])
    with ⟨front, c, back, hchars, hfront, hc⟩ | ⟨lexeme, hmem, hblank, hcontains⟩
  · exact .inl ⟨front, c, back, hchars, by omega, hc⟩
  · by_cases hcomment : lexeme.token = .comment
    · exact .inr (.inl ⟨lexeme, hmem, hcomment, hcontains⟩)
    · have htrivia : lexeme.token.isTrivia = false := by
        cases htoken : lexeme.token <;> simp_all [Token.isTrivia]
      have hsignificant : .lexeme lexeme ∈ significantItems source :=
        List.mem_filter.mpr ⟨hmem, by simp [Item.isSignificant, htrivia]⟩
      rw [h, List.mem_map] at hsignificant
      obtain ⟨found, hfound, hsame⟩ := hsignificant
      cases hsame
      exact .inr (.inr ⟨lexeme, hfound, hcontains⟩)

end TexMath
