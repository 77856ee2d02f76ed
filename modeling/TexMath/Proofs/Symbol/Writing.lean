import TexMath.Canonical
import TexMath.Proofs.Formula.WellFormed
import TexMath.Proofs.Token.Lexing

/-!
# How symbols are written

The piece that is written for a symbol scans to a token which stands for that symbol again: a
character for one with a character of its own, the canonical name of its command for the others.
-/

namespace TexMath

open Text

namespace Literal

/-! ## Characters written as they are -/

theorem nucleus_of_mem_typeset : ∀ entry ∈ typeset, nucleus entry.1 = entry.2 := by
  decide

theorem kind?_of_char? {c : Char} {kind : AtomKind} {text : String}
    (h : char? kind text = some c) : kind? c = some kind ∧ nucleus c = text := by
  unfold char? at h
  split at h
  · rename_i entry hfind
    cases h
    have hentry := List.find?_some hfind
    simp only [Bool.and_eq_true, beq_iff_eq] at hentry
    have hnucleus := nucleus_of_mem_typeset entry (List.mem_of_find?_eq_some hfind)
    exact ⟨hentry.2, hnucleus.trans hentry.1⟩
  · split at h
    · rename_i c' hchars
      split at h
      · rename_i hplain
        cases h
        simp only [Bool.and_eq_true, beq_iff_eq, Option.isNone_iff_eq_none] at hplain
        refine ⟨hplain.2, ?_⟩
        rw [nucleus, hplain.1.2]
        exact String.toList_inj.mp (by simpa using hchars.symm)
      · cases h
    · cases h

theorem isControl_of_le {c low high : Char} (hlow : 0x20 ≤ low.toNat) (hhigh : high.toNat < 0x7F)
    (hle : low.val ≤ c.val) (hge : c.val ≤ high.val) : isControl c = false := by
  rw [UInt32.le_iff_toNat_le, Char.toNat_val, Char.toNat_val] at hle hge
  simp only [isControl, Bool.or_eq_false_iff, Bool.and_eq_false_iff, decide_eq_false_iff_not]
  omega

theorem isControl_of_isAlphanum {c : Char} (h : c.isAlphanum = true) : isControl c = false := by
  have hclass : (decide ('A'.val ≤ c.val ∧ c.val ≤ 'Z'.val) ||
      (decide ('a'.val ≤ c.val) && decide (c.val ≤ 'z'.val)) ||
      (decide ('0'.val ≤ c.val) && decide (c.val ≤ '9'.val))) = true := h
  simp only [Bool.or_eq_true, Bool.and_eq_true, decide_eq_true_eq] at hclass
  rcases hclass with (⟨hle, hge⟩ | ⟨hle, hge⟩) | ⟨hle, hge⟩
  · exact isControl_of_le (by decide) (by decide) hle hge
  · exact isControl_of_le (by decide) (by decide) hle hge
  · exact isControl_of_le (by decide) (by decide) hle hge

theorem isControl_of_kind? {c : Char} {kind : AtomKind} (h : kind? c = some kind) :
    isControl c = false := by
  have listed : ∀ chars : List Char, chars.all (fun c => !isControl c) = true → c ∈ chars →
      isControl c = false := by
    intro chars hall hmem
    simpa using List.all_eq_true.mp hall c hmem
  unfold kind? at h
  split at h
  · rename_i hclass
    rcases Bool.or_eq_true_iff.mp hclass with hletter | hsign
    · exact isControl_of_isAlphanum hletter
    · exact listed _ (by decide) (of_decide_eq_true hsign)
  iterate 5
    split at h
    · rename_i hsign
      exact listed _ (by decide) hsign
  split at h
  · rename_i hclass
    simp only [Bool.and_eq_true, Bool.not_eq_true'] at hclass
    exact hclass.1.2
  · cases h

theorem kind?_eq_none_of_mem :
    ∀ c ∈ [' ', '\t', '\n', '\x0c', '\r', '%', '\\', '&', '\x7b', '\x7d', '^', '_', '#', '$', '~'],
      kind? c = none := by
  simp only [← Option.isNone_iff_eq_none, ← List.all_eq_true]
  decide

theorem ofChar?_of_kind? {c : Char} {kind : AtomKind} (h : kind? c = some kind) :
    Token.ofChar? c = some (if c = '[' then .bracketOpen else if c = ']' then .bracketClose
      else .character c) := by
  have hspecial : c ∉ [' ', '\t', '\n', '\x0c', '\r', '%', '\\', '&', '\x7b', '\x7d', '^', '_', '#',
      '$', '~'] := by
    intro hmem
    rw [kind?_eq_none_of_mem c hmem] at h
    cases h
  have hcontrol := isControl_of_kind? h
  simp only [List.mem_cons, List.not_mem_nil, or_false, not_or] at hspecial
  unfold Token.ofChar?
  rw [if_neg (by simp [isSpacing]; grind)]
  unfold Cursor.characterToken?
  split <;> simp_all

theorem nucleus_of_char?_eq_none {c : Char} {kind : AtomKind} (h : kind? c = some kind)
    (hnone : char? kind (nucleus c) = none) :
    nucleus c = String.singleton c ∧ Token.ofChar? c = some (.character c) := by
  unfold char? at hnone
  split at hnone
  · cases hnone
  rename_i hfind
  have hlookup : typeset.lookup c = none := by
    cases htypeset : typeset.lookup c with
    | none => rfl
    | some text =>
        obtain ⟨before, after, hsplit, -⟩ := List.lookup_eq_some_iff.mp htypeset
        have hmem : (c, text) ∈ typeset := by rw [hsplit]; simp
        have hother := List.find?_eq_none.mp hfind (c, text) hmem
        simp [h, nucleus_of_mem_typeset _ hmem] at hother
  have hnucleus : nucleus c = String.singleton c := by rw [nucleus, hlookup]; rfl
  have hascii : isAscii c = false := by simpa [hnucleus, hlookup, h] using hnone
  have hopen : c ≠ '[' := by rintro rfl; cases hascii
  have hclose : c ≠ ']' := by rintro rfl; cases hascii
  exact ⟨hnucleus, by rw [ofChar?_of_kind? h, if_neg hopen, if_neg hclose]⟩

end Literal

namespace Command

theorem isName_of_mem_table : ∀ entry ∈ table, Piece.isName entry.1 = true := by
  have hnames : ∀ entry ∈ table,
      (Piece.isWord entry.1 || entry.1.toList.length == 1) = true := by
    decide +kernel
  intro entry hentry
  have hfind := find?_of_mem_table entry hentry
  have hbegin : entry.1 ≠ "begin" := by
    intro h
    rw [h, find?_begin] at hfind
    cases hfind
  have hend : entry.1 ≠ "end" := by
    intro h
    rw [h, find?_end] at hfind
    cases hfind
  simp [Piece.isName, hbegin, hend, hnames entry hentry]

theorem find?_of_name? {kind : AtomKind} {nucleus name : String}
    (h : name? kind nucleus = some name) :
    Piece.isName name = true ∧ ∃ template, find? name = some (.atom template) ∧
      template.kind.family = kind.family ∧ template.nucleus = nucleus := by
  obtain ⟨⟨_, command⟩, hfound, rfl⟩ := Option.map_eq_some_iff.mp h
  have hmem := List.mem_of_find?_eq_some hfound
  have hproduces := List.find?_some hfound
  refine ⟨isName_of_mem_table _ hmem, ?_⟩
  cases command with
  | atom template =>
      simp only [produces, Bool.and_eq_true, beq_iff_eq] at hproduces
      exact ⟨template, find?_of_mem_table _ hmem, hproduces⟩
  | limits | left | right | newRow => cases hproduces

theorem exists_name? {kind : AtomKind} {name : String} {template : Template}
    (hfind : find? name = some (.atom template)) (hfamily : template.kind.family = kind.family) :
    ∃ canonical, name? kind template.nucleus = some canonical := by
  obtain ⟨canonical, hmem⟩ := exists_mem_table_of_find? hfind
  cases hfound : table.find? fun entry => entry.2.produces kind template.nucleus with
  | none =>
      have hother := List.find?_eq_none.mp hfound _ hmem
      simp [produces, hfamily] at hother
  | some entry => exact ⟨entry.1, by simp [name?, hfound]⟩

theorem name?_ordinary_empty : name? .ordinary "" = none := by decide +kernel

theorem defaultLimits?_of_name? {limits : Bool} {nucleus name : String}
    (h : name? (.largeOperator limits) nucleus = some name) :
    ∃ template usual, find? name = some (.atom template) ∧ template.nucleus = nucleus ∧
      template.kind = .largeOperator usual ∧ defaultLimits? nucleus = some usual := by
  obtain ⟨⟨_, command⟩, hfound, rfl⟩ := Option.map_eq_some_iff.mp h
  have hmem := List.mem_of_find?_eq_some hfound
  have hproduces := List.find?_some hfound
  cases command with
  | atom template =>
      simp only [produces, Bool.and_eq_true, beq_iff_eq, AtomKind.family] at hproduces
      obtain ⟨kind, text, count, optional⟩ := template
      obtain ⟨hfamily, rfl⟩ := hproduces
      cases kind with
      | largeOperator usual =>
          refine ⟨_, usual, find?_of_mem_table _ hmem, rfl, rfl, ?_⟩
          -- The search forgets the limits, so that it is the one that has found the name.
          change table.find? (fun entry => entry.2.produces (.largeOperator false) text) =
            _ at hfound
          rw [defaultLimits?, hfound]
      | _ => cases hfamily
  | limits | left | right | newRow => cases hproduces

end Command

namespace Delimiter

theorem glyph?_of_mem_spellings :
    ∀ entry ∈ spellings, entry.2.token?.bind glyph? = some entry.1 := by
  decide

theorem exists_spelling {glyph : String} (h : IsGlyph glyph) :
    ∃ written, spellings.lookup glyph = some written := by
  have hcharacters : ∀ entry ∈ characters, (spellings.lookup entry.2).isSome = true := by decide
  have hcommands : ∀ entry ∈ commands, (spellings.lookup entry.2).isSome = true := by decide
  rw [← Option.isSome_iff_exists]
  obtain ⟨token, htoken⟩ := h
  cases token with
  | character c =>
      obtain ⟨before, after, hsplit, -⟩ := List.lookup_eq_some_iff.mp htoken
      exact hcharacters (c, glyph) (by rw [hsplit]; simp)
  | command name =>
      obtain ⟨before, after, hsplit, -⟩ := List.lookup_eq_some_iff.mp htoken
      exact hcommands (name, glyph) (by rw [hsplit]; simp)
  | bracketOpen =>
      cases htoken
      decide
  | bracketClose =>
      cases htoken
      decide
  | _ => cases htoken

theorem exists_token_of_isGlyph {glyph : String} (h : IsGlyph glyph) :
    ∃ token, Spells [piece glyph] [token] ∧ glyph? token = some glyph := by
  obtain ⟨written, hlookup⟩ := exists_spelling h
  obtain ⟨before, after, hsplit, -⟩ := List.lookup_eq_some_iff.mp hlookup
  have hmem : (glyph, written) ∈ spellings := by rw [hsplit]; simp
  have hspelling := glyph?_of_mem_spellings _ hmem
  obtain ⟨token, htoken, hglyph⟩ := Option.bind_eq_some_iff.mp hspelling
  refine ⟨token, ?_, hglyph⟩
  rw [piece, hlookup]
  exact .of_token? htoken

end Delimiter

end TexMath
