import TexMath.Proofs.Token.Leads
import TexMath.Proofs.Token.Offsets

/-!
# Sources cut and joined

What happens to the items of a source when it is cut off behind a lexeme, when white space or a
comment is put into it in front of a lexeme or behind one, and when another source is written below
it.  The items in front of such a place stay as they are, and those behind it move.
-/

namespace TexMath

open Text

theorem Text.append_inj_of_size {front back front' back' : String}
    (h : front ++ back = front' ++ back') (hsize : front.utf8ByteSize = front'.utf8ByteSize) :
    front = front' ∧ back = back' := by
  have hnil : ∀ chars : List Char, width chars = 0 → chars = [] := by
    intro chars hzero
    have hle := length_le_width chars
    exact List.length_eq_zero_iff.mp (by omega)
  rw [← width_toList, ← width_toList] at hsize
  have hchars : front.toList ++ back.toList = front'.toList ++ back'.toList := by
    rw [← String.toList_append, h, String.toList_append]
  have hfront : front.toList = front'.toList := by
    obtain ⟨more, hmore, -⟩ | ⟨more, hmore, -⟩ := List.append_eq_append_iff.mp hchars
    · rw [hmore, hnil more (by rw [hmore, width_append] at hsize; omega), List.append_nil]
    · rw [hmore, hnil more (by rw [hmore, width_append] at hsize; omega), List.append_nil]
  rw [hfront] at hchars
  exact ⟨String.toList_inj.mp hfront, String.toList_inj.mp (List.append_cancel_left hchars)⟩

variable {front text gap back : String} {lexeme : Lexeme}

theorem significantItems_of_leads {items : List Item} (h : Leads 0 front.toList items back.toList) :
    significantItems (front ++ back) = items.filter Item.isSignificant ++
      (significantItems back).map (Item.shift front.utf8ByteSize) := by
  have hmoved : (⟨0 + width front.toList, back.toList⟩ : Cursor) =
      (Cursor.start back).shift front.utf8ByteSize := by
    rw [width_toList]
    rfl
  have hchars : significantItems (front ++ back) =
      (⟨0, front.toList ++ back.toList⟩ : Cursor).significant := by
    rw [← String.toList_append]
    rfl
  rw [hchars, h.significant, hmoved, Cursor.significant_shift]
  rfl

/-! ## In front of a lexeme and behind it -/

/-- A lexeme in its source.  The text in front of it scans by itself. -/
structure Lexeme.LiesIn (lexeme : Lexeme) (before : String) (items : List Item) (after : String) :
    Prop where
  leads : Leads 0 before.toList items (lexeme.text ++ after).toList
  spelling : Token.Spelling lexeme.token lexeme.text.toList after.toList
  start : lexeme.span.start = before.utf8ByteSize
  stop : lexeme.span.stop = (before ++ lexeme.text).utf8ByteSize

namespace Lexeme.LiesIn

variable {before after other : String} {items : List Item}

theorem exists_of_mem {source : String} (h : .lexeme lexeme ∈ TexMath.items source) :
    ∃ before items after, source = before ++ lexeme.text ++ after ∧
      lexeme.LiesIn before items after := by
  obtain ⟨front, back, items, hchars, hleads, hspelling, hstart, hstop⟩ := Cursor.exists_leads h
  have hstart : lexeme.span.start = width front := hstart.trans (Nat.zero_add _)
  refine ⟨String.ofList front, items, String.ofList back, ?_, ?_, ?_, ?_, ?_⟩
  · apply String.toList_inj.mp
    simpa [Cursor.start] using hchars
  · rw [String.toList_append, String.toList_ofList, String.toList_ofList]
    exact hleads
  · rwa [String.toList_ofList]
  · rw [hstart, ← width_toList, String.toList_ofList]
  · rw [hstop, hstart, ← width_toList, String.toList_append, String.toList_ofList, width_append]

theorem leads_through (h : lexeme.LiesIn before items after) :
    Leads 0 (before ++ lexeme.text).toList (items ++ [.lexeme lexeme]) after.toList := by
  have hleads := h.leads
  have hstart : lexeme.span.start = 0 + width before.toList := by
    rw [h.start, width_toList, Nat.zero_add]
  have hstop : lexeme.span.stop = lexeme.span.start + width lexeme.text.toList := by
    rw [h.stop, h.start, String.utf8ByteSize_append, width_toList]
  rw [String.toList_append] at hleads ⊢
  exact hleads.concat h.spelling hstart hstop

end Lexeme.LiesIn

theorem significantItems_cut (h : .lexeme lexeme ∈ items (front ++ back))
    (hstop : lexeme.span.stop = front.utf8ByteSize) :
    ∃ more, significantItems (front ++ back) = significantItems front ++ more := by
  obtain ⟨before, items, after, hsource, hlies⟩ := Lexeme.LiesIn.exists_of_mem h
  obtain ⟨rfl, rfl⟩ := Text.append_inj_of_size hsource (hstop.symm.trans hlies.stop)
  have hcut : Leads 0 (before ++ lexeme.text).toList (items ++ [.lexeme lexeme]) "".toList :=
    Leads.of_append (show Leads _ _ _ ([] ++ _) from hlies.leads_through)
  have hfront := significantItems_of_leads hcut
  rw [String.append_empty, show significantItems "" = [] from rfl, List.map_nil,
    List.append_nil] at hfront
  rw [hfront]
  exact ⟨_, significantItems_of_leads hlies.leads_through⟩

theorem exists_items_before (hmem : .lexeme lexeme ∈ significantItems (front ++ text ++ back))
    (hspan : lexeme.span = ⟨front.utf8ByteSize, (front ++ text).utf8ByteSize⟩) :
    ∃ before : List Item, significantItems (front ++ text ++ back) =
        before ++ .lexeme lexeme ::
          (significantItems back).map (Item.shift (front ++ text).utf8ByteSize) ∧
      ∀ other : String, NoLetter other.toList → significantItems (front ++ other) =
        before ++ (significantItems other).map (Item.shift front.utf8ByteSize) := by
  obtain ⟨hitem, hsignificant⟩ := List.mem_filter.mp hmem
  obtain ⟨before, items, after, hsource, hlies⟩ := Lexeme.LiesIn.exists_of_mem hitem
  have hstart : front.utf8ByteSize = before.utf8ByteSize := by rw [← hlies.start, hspan]
  have hstop : (front ++ text).utf8ByteSize = (before ++ lexeme.text).utf8ByteSize := by
    rw [← hlies.stop, hspan]
  obtain ⟨hfront, rfl⟩ := Text.append_inj_of_size hsource hstop
  obtain ⟨rfl, rfl⟩ := Text.append_inj_of_size hfront hstart
  refine ⟨items.filter Item.isSignificant, ?_, fun other hother => ?_⟩
  · rw [significantItems_of_leads hlies.leads_through, List.filter_append, List.append_assoc,
      List.filter_cons_of_pos hsignificant]
    rfl
  · exact significantItems_of_leads
      (hlies.leads.in_front_of (by simp [hlies.spelling.ne_nil]) fun _ => hother)

/-! ## White space and comments -/

/-- White space, or a comment with the end of its line. -/
def Text.IsGap (gap : String) : Prop :=
  (∀ c ∈ gap.toList, isSpacing c = true) ∨
    ∃ body : List Char, gap.toList = '%' :: (body ++ ['\n']) ∧ '\n' ∉ body

namespace Text.IsGap

theorem noLetter (h : IsGap gap) {rest : List Char} (hrest : NoLetter rest) :
    NoLetter (gap.toList ++ rest) := by
  rcases h with hspaces | ⟨body, hchars, -⟩
  · cases hgap : gap.toList with
    | nil => exact hrest
    | cons c chars =>
        intro first hfirst
        obtain rfl : c = first := by simpa using hfirst
        have hspace := hspaces c (by simp [hgap])
        simp only [isSpacing, Bool.or_eq_true, beq_iff_eq] at hspace
        rcases hspace with (((rfl | rfl) | rfl) | rfl) | rfl <;> decide
  · rw [hchars]
    intro first hfirst
    obtain rfl : '%' = first := by simpa using hfirst
    decide

theorem leads (h : IsGap gap) (rest : List Char) : ∃ items : List Item,
    items.filter Item.isSignificant = [] ∧ Leads 0 gap.toList items rest := by
  rcases h with hspaces | ⟨body, hchars, hbody⟩
  · exact ⟨[], rfl, by simpa using Leads.spaces hspaces .nil⟩
  · let comment : Lexeme := ⟨.comment, ⟨0, 0 + width gap.toList⟩, gap⟩
    refine ⟨[.lexeme comment], rfl, ?_⟩
    have hspelling : Token.Spelling comment.token comment.text.toList ([] ++ rest) := by
      rw [show comment.text.toList = '%' :: (body ++ ['\n']) from hchars]
      exact .comment hbody
    simpa using Leads.lexeme hspelling rfl .nil

theorem significantItems_append (h : IsGap gap) (back : String) :
    significantItems (gap ++ back) =
      (significantItems back).map (Item.shift gap.utf8ByteSize) := by
  obtain ⟨items, hnone, hleads⟩ := h.leads back.toList
  rw [significantItems_of_leads hleads, hnone, List.nil_append]

end Text.IsGap

namespace Lexeme.LiesIn

variable {before after : String} {items : List Item}

theorem leads_gap (h : lexeme.LiesIn before items after) (hgap : IsGap gap) :
    Leads 0 before.toList items (gap ++ (lexeme.text ++ after)).toList := by
  refine h.leads.in_front_of (by simp [h.spelling.ne_nil]) fun hletter => ?_
  rw [String.toList_append]
  exact hgap.noLetter hletter

theorem gap_behind (h : lexeme.LiesIn before items after) (hgap : IsGap gap)
    (hcomment : lexeme.token ≠ .comment) : lexeme.LiesIn before items (gap ++ after) where
  leads := by
    refine h.leads.in_front_of (by simp [h.spelling.ne_nil]) fun hletter => ?_
    rw [String.toList_append] at hletter ⊢
    obtain ⟨c, chars, hchars⟩ := List.exists_cons_of_ne_nil h.spelling.ne_nil
    rw [hchars] at hletter ⊢
    exact hletter
  spelling := by
    refine h.spelling.in_front_of (fun hletter => ?_) fun htoken => absurd htoken hcomment
    rw [String.toList_append]
    exact hgap.noLetter hletter
  start := h.start
  stop := h.stop

end Lexeme.LiesIn

theorem significantItems_insert (hgap : IsGap gap) (h : .lexeme lexeme ∈ items (front ++ back))
    (hcomment : lexeme.token ≠ .comment)
    (hplace : lexeme.span.start = front.utf8ByteSize ∨ lexeme.span.stop = front.utf8ByteSize) :
    ∃ before after : List Item, significantItems (front ++ back) = before ++ after ∧
      significantItems (front ++ gap ++ back) =
        before ++ after.map (Item.shift gap.utf8ByteSize) ∧
      (∀ item ∈ before, item.span.start < front.utf8ByteSize) ∧
      ∀ item ∈ after, front.utf8ByteSize ≤ item.span.start := by
  -- In both places a text leads to the gap and to what stands behind it.
  have hleads : ∃ items, Leads 0 front.toList items back.toList ∧
      Leads 0 front.toList items (gap ++ back).toList := by
    obtain ⟨before, items, after, hsource, hlies⟩ := Lexeme.LiesIn.exists_of_mem h
    rcases hplace with hstart | hstop
    · rw [String.append_assoc] at hsource
      obtain ⟨rfl, rfl⟩ := Text.append_inj_of_size hsource (hstart.symm.trans hlies.start)
      exact ⟨items, hlies.leads, hlies.leads_gap hgap⟩
    · obtain ⟨rfl, rfl⟩ := Text.append_inj_of_size hsource (hstop.symm.trans hlies.stop)
      exact ⟨_, hlies.leads_through, (hlies.gap_behind hgap hcomment).leads_through⟩
  obtain ⟨items, hback, hgapped⟩ := hleads
  refine ⟨items.filter Item.isSignificant,
    (significantItems back).map (Item.shift front.utf8ByteSize),
    significantItems_of_leads hback, ?_, ?_, ?_⟩
  · rw [String.append_assoc, significantItems_of_leads hgapped, hgap.significantItems_append,
      List.map_map, List.map_map]
    congr 2
    funext item
    simp [Nat.add_comm]
  · intro item hitem
    have hlt := hback.start_lt (List.mem_filter.mp hitem).1
    rwa [Nat.zero_add, width_toList] at hlt
  · intro item hitem
    obtain ⟨found, -, rfl⟩ := List.mem_map.mp hitem
    rw [Item.start_shift]
    exact Nat.le_add_left _ _

/-! ## One source below another -/

theorem Tiles.eq_nil_of_nil {offset : Nat} {items : List Item} (h : Tiles offset [] items) :
    items = [] := by
  generalize hchars : ([] : List Char) = chars at h
  cases h with
  | nil => rfl
  | lexeme _ hspelling => simp [hspelling.ne_nil] at hchars
  | fault _ hne => simp [hne] at hchars

theorem Token.Spelling.line {token : Token} {text rest : List Char} (h : Spelling token text rest) :
    (∀ more, Spelling token text (rest ++ '\n' :: more)) ∨
      token = .comment ∧ rest = [] ∧ ∀ more, Spelling .comment (text ++ ['\n']) more := by
  by_cases hlast : token = .comment ∧ rest = []
  · obtain ⟨rfl, rfl⟩ := hlast
    cases h with
    | comment hbody => exact .inl fun _ => .comment hbody
    | lastComment hbody => exact .inr ⟨rfl, rfl, fun _ => .comment hbody⟩
    | character htoken => exact .inl fun _ => .character htoken
  · refine .inl fun more => h.in_front_of (fun hletter => ?_) fun htoken hrest =>
      hlast ⟨htoken, hrest⟩
    cases rest with
    | nil =>
        intro c hc
        obtain rfl : '\n' = c := by simpa using hc
        decide
    | cons c rest => exact hletter

theorem Tiles.leads_line {offset : Nat} {chars : List Char} {items : List Item}
    (h : Tiles offset chars items) (hclear : ∀ error, .fault error ∉ items) :
    ∃ others : List Item, others.filter Item.isSignificant = items.filter Item.isSignificant ∧
      ∀ rest, Leads offset (chars ++ ['\n']) others rest := by
  induction h with
  | @nil offset spaces hspaces =>
      refine ⟨[], rfl, fun rest => ?_⟩
      have hall : ∀ c ∈ spaces ++ ['\n'], isSpacing c = true :=
        List.forall_mem_append.mpr ⟨hspaces, by simp [isSpacing]⟩
      have hleads : Leads offset ((spaces ++ ['\n']) ++ []) [] rest := .spaces hall .nil
      rwa [List.append_nil] at hleads
  | @lexeme offset spaces rest lexeme items hspaces hspelling hstart hstop htiles ih =>
      rcases hspelling.line with hline | ⟨htoken, rfl, hline⟩
      · obtain ⟨others, hothers, hleads⟩ :=
          ih fun error hmem => hclear error (List.mem_cons_of_mem _ hmem)
        refine ⟨.lexeme lexeme :: others, ?_, fun more => ?_⟩
        · rw [List.filter_cons, List.filter_cons, hothers]
        · rw [List.append_assoc, List.append_assoc]
          refine .spaces hspaces ?_
          rw [← hstart]
          exact .lexeme (by simpa using hline more) hstop (hleads more)
      · -- The last comment goes on to the end of the line.
        obtain rfl := htiles.eq_nil_of_nil
        let ended : Lexeme := ⟨.comment,
          ⟨lexeme.span.start, lexeme.span.start + width (lexeme.text ++ "\n").toList⟩,
          lexeme.text ++ "\n"⟩
        refine ⟨[.lexeme ended], ?_, fun more => ?_⟩
        · simp [ended, Item.isSignificant, Token.isTrivia, htoken]
        · have hended : Token.Spelling ended.token ended.text.toList ([] ++ more) := by
            simpa [ended] using hline more
          have hleads : Leads lexeme.span.start (ended.text.toList ++ []) [.lexeme ended] more :=
            .lexeme hended rfl .nil
          rw [List.append_assoc]
          refine .spaces hspaces ?_
          rw [← hstart]
          simpa [ended] using hleads
  | fault => exact absurd List.mem_cons_self (hclear _)

theorem significantItems_line (hclear : ∀ error, .fault error ∉ items front) :
    significantItems (front ++ "\n" ++ back) = significantItems front ++
      (significantItems back).map (Item.shift (front.utf8ByteSize + 1)) := by
  obtain ⟨others, hothers, hleads⟩ := (items_tile front).leads_line hclear
  have hline : Leads 0 (front ++ "\n").toList others back.toList := by
    rw [String.toList_append]
    exact hleads back.toList
  rw [significantItems_of_leads hline, hothers, String.utf8ByteSize_append]
  rfl

end TexMath
