import TexMath.Proofs.Token.Tiling
import Mathlib.Data.List.Nodup

/-!
# Where the items stand

Every item comes from a scan at some place in its source.  So the span of a lexeme covers its text,
the span of a fault covers the part of the source that it points at, and no two items start at the
same place.
-/

namespace TexMath

open Text

/-! ## Scans at a place in a source -/

namespace Cursor

variable {cursor first last after : Cursor} {source : String} {text : List Char}
  {error : ParseError} {item : Item}

def StandsIn (cursor : Cursor) (source : String) : Prop :=
  ∃ passed, (start source).Passes passed cursor

theorem start_standsIn (source : String) : (start source).StandsIn source := ⟨[], .refl _⟩

namespace StandsIn

theorem behind (h : first.StandsIn source) (hpasses : first.Passes text last) :
    last.StandsIn source := by
  obtain ⟨passed, hpassed⟩ := h
  exact ⟨passed ++ text, hpassed.trans hpasses⟩

theorem covers (h : first.StandsIn source) (hpasses : first.Passes text last) :
    (first.spanTo last).Covers source (String.ofList text) := by
  obtain ⟨passed, hpassed⟩ := h
  refine ⟨String.ofList passed, String.ofList last.rest, ?_, ?_, ?_⟩
  · apply String.toList_inj.mp
    simpa [hpasses.rest, start] using hpassed.rest
  · simpa [← width_toList, spanTo, start] using hpassed.offset
  · simpa [← width_toList, spanTo] using hpasses.offset

theorem offset_of_nil (h : cursor.StandsIn source) (hrest : cursor.rest = []) :
    cursor.offset = source.utf8ByteSize := by
  obtain ⟨passed, hpassed⟩ := h
  have hchars : source.toList = passed := by simpa [start, hrest] using hpassed.rest
  rw [← width_toList, hchars, hpassed.offset, start, Nat.zero_add]

end StandsIn

/-! ## Faults -/

theorem scanEnvironment_faulted {lead : List Char} {command : String}
    {token : Environment → Token} (hcommand : command = "\\begin" ∨ command = "\\end")
    (h : scanEnvironment first lead command token cursor = (.fault error, after)) :
    cursor.Faulted error after := by
  unfold scanEnvironment at h
  split at h
  · rename_i hname
    cases h
    exact environmentName_faulted hcommand hname
  · rename_i hname
    dsimp only at h
    split at h
    · cases h
      exact .intro (.refl cursor) (environmentName_passes hname) (.refl after) rfl
        .unknownEnvironment
    · cases h

theorem scanCommand_faulted {rest : List Char} (hrest : cursor.rest = '\\' :: rest)
    (h : scanCommand cursor (cursor.past '\\' rest) = (.fault error, after)) :
    cursor.Faulted error after := by
  have hbackslash : cursor.Passes ['\\'] (cursor.past '\\' rest) := .past hrest
  unfold scanCommand at h
  split at h
  · cases h
    exact .intro (.refl cursor) hbackslash (.refl _) rfl .unexpectedCharacter
  · rename_i name named hcommand
    have hlead := (hbackslash.trans (commandName?_passes hcommand).1).trans (.run named isSpacing)
    dsimp only at h
    split at h
    · exact (scanEnvironment_faulted (.inl rfl) h).prepend hlead
    · exact (scanEnvironment_faulted (.inr rfl) h).prepend hlead
    · cases h

theorem scan_faulted (h : cursor.scan = (.fault error, after)) : cursor.Faulted error after := by
  unfold scan at h
  split at h
  · cases h
  · rename_i c rest hrest
    dsimp only at h
    split at h
    · cases h
    · split at h
      · cases h
      · split at h
        · rename_i hbackslash
          subst hbackslash
          exact scanCommand_faulted hrest h
        · split at h
          · cases h
            exact .intro (.refl cursor) (.past hrest) (.refl _) rfl .unexpectedCharacter
          · cases h

theorem scan_passes (h : cursor.rest ≠ []) : ∃ text, cursor.Passes text cursor.scan.2 := by
  have hscanned := scan_scanned h
  generalize cursor.scan.1 = item at hscanned
  cases hscanned with
  | lexeme hpasses _ _ hspaces _ => exact ⟨_, hpasses.trans hspaces⟩
  | fault hpasses _ => exact ⟨_, hpasses⟩

theorem exists_scan_of_mem_items {bound : Nat} (hstands : cursor.StandsIn source)
    (h : item ∈ cursor.items bound) :
    ∃ place : Cursor, place.StandsIn source ∧ place.rest ≠ [] ∧ place.scan.1 = item := by
  induction bound generalizing cursor with
  | zero => cases h
  | succ bound ih =>
      by_cases hrest : cursor.rest = []
      · rw [items_of_nil hrest] at h
        cases h
      · rw [items_succ hrest, List.mem_cons] at h
        rcases h with rfl | h
        · exact ⟨cursor, hstands, hrest, rfl⟩
        · obtain ⟨text, hpasses⟩ := scan_passes hrest
          exact ih (hstands.behind hpasses) h

end Cursor

/-! ## The text of an item -/

def Environment.WrittenAs (command : String) (environment : Environment) (text : String) : Prop :=
  ∃ spaces : List Char, (∀ c ∈ spaces, isSpacing c = true) ∧
    text = command ++ String.ofList spaces ++ "\x7b" ++ environment.name ++ "\x7d"

def Token.Written (text : String) : Token → Prop
  | .character c => text = String.singleton c
  | .command name => text = "\\" ++ name
  | .environmentBegin environment => environment.WrittenAs "\\begin" text
  | .environmentEnd environment => environment.WrittenAs "\\end" text
  | .columnMark => text = "&"
  | .bracketOpen => text = "["
  | .bracketClose => text = "]"
  | .braceOpen => text = "\x7b"
  | .braceClose => text = "\x7d"
  | .superscriptMark => text = "^"
  | .subscriptMark => text = "_"
  | .blank | .comment | .sourceEnd => True

theorem Token.written_of_ofChar? {c : Char} {token : Token} (h : ofChar? c = some token) :
    token.Written (String.singleton c) := by
  unfold ofChar? at h
  split at h
  · cases h
  · unfold Cursor.characterToken? at h
    split at h <;> first | cases h; rfl | cases h | skip
    split at h <;> cases h
    rfl

theorem Token.Spelling.written {token : Token} {text rest : List Char}
    (h : Spelling token text rest) : token.Written (String.ofList text) := by
  cases h with
  | blank | comment | lastComment => trivial
  | character htoken => exact written_of_ofChar? htoken
  | command => exact String.toList_inj.mp (by simp)
  | environmentBegin hspaces => exact ⟨_, hspaces, String.toList_inj.mp (by simp)⟩
  | environmentEnd hspaces => exact ⟨_, hspaces, String.toList_inj.mp (by simp)⟩

variable {source : String} {lexeme : Lexeme} {error : ParseError} {item : Item}

theorem covers_of_lexeme_mem (h : .lexeme lexeme ∈ items source) :
    lexeme.span.Covers source lexeme.text ∧ lexeme.token.Written lexeme.text := by
  obtain ⟨place, hstands, hrest, hscan⟩ :=
    Cursor.exists_scan_of_mem_items (Cursor.start_standsIn source) h
  have hscanned := Cursor.scan_scanned hrest
  rw [hscan] at hscanned
  cases hscanned with
  | lexeme hpasses hspelling hspan _ _ =>
      have hcovers := hstands.covers hpasses
      have hwritten := hspelling.written
      rw [String.ofList_toList] at hcovers hwritten
      exact ⟨hspan ▸ hcovers, hwritten⟩

theorem covers_of_fault_mem (h : .fault error ∈ items source) :
    ∃ text rest, error.span.Covers source (String.ofList text) ∧ error.cause.Spelling text rest ∧
      (rest = [] → error.span.stop = source.utf8ByteSize) := by
  obtain ⟨place, hstands, -, hscan⟩ :=
    Cursor.exists_scan_of_mem_items (Cursor.start_standsIn source) h
  obtain @⟨first, last, _, text, _, hlead, htext, -, hspan, hspelling⟩ :=
    Cursor.scan_faulted (Prod.ext hscan rfl)
  have hfirst := hstands.behind hlead
  refine ⟨text, last.rest, hspan ▸ hfirst.covers htext, hspelling, fun hend => ?_⟩
  rw [hspan]
  exact (hfirst.behind htext).offset_of_nil hend

/-! ## The order of the items -/

def Item.span : Item → Span
  | .lexeme lexeme => lexeme.span
  | .fault error => error.span

namespace Cursor

variable {cursor : Cursor}

theorem start_scan_lt (h : cursor.rest ≠ []) :
    cursor.offset ≤ cursor.scan.1.span.start ∧
      (cursor.scan.1.span.start < cursor.scan.2.offset ∨ cursor.scan.2.rest = []) := by
  have hscanned := scan_scanned h
  generalize hscan : cursor.scan = scanned at hscanned ⊢
  obtain ⟨lexeme | error, after⟩ := scanned
  · obtain @⟨_, middle, _, _, hpasses, hspelling, hspan, hspaces, -⟩ := hscanned
    have hpos : 0 < width lexeme.text.toList := hspelling.width_pos
    have hstart : lexeme.span.start = cursor.offset := by rw [hspan, spanTo]
    have hmiddle := hpasses.offset
    have hafter := hspaces.offset
    exact ⟨hstart.ge, .inl (by simp only [Item.span] at hafter ⊢; omega)⟩
  · exact (scan_faulted hscan).start_lt

theorem start_of_mem_items {bound : Nat} (h : item ∈ cursor.items bound) :
    cursor.offset ≤ item.span.start := by
  induction bound generalizing cursor with
  | zero => cases h
  | succ bound ih =>
      by_cases hrest : cursor.rest = []
      · rw [items_of_nil hrest] at h
        cases h
      · rw [items_succ hrest, List.mem_cons] at h
        rcases h with rfl | h
        · exact (start_scan_lt hrest).1
        · obtain ⟨text, hpasses⟩ := scan_passes hrest
          have hlater := ih h
          have hoffset := hpasses.offset
          omega

theorem items_pairwise (cursor : Cursor) (bound : Nat) :
    (cursor.items bound).Pairwise fun a b => a.span.start < b.span.start := by
  induction bound generalizing cursor with
  | zero => exact .nil
  | succ bound ih =>
      by_cases hrest : cursor.rest = []
      · rw [items_of_nil hrest]
        exact .nil
      rw [items_succ hrest]
      refine .cons (fun item hitem => ?_) (ih _)
      rcases (start_scan_lt hrest).2 with hlt | hend
      · exact Nat.lt_of_lt_of_le hlt (start_of_mem_items hitem)
      · rw [items_of_nil hend] at hitem
        cases hitem

end Cursor

theorem starts_nodup (source : String) : ((items source).map fun item => item.span.start).Nodup :=
  List.pairwise_map.mpr
    (((Cursor.start source).items_pairwise _).imp fun hlt => Nat.ne_of_lt hlt)

theorem eq_of_start_eq {a b : Item} (ha : a ∈ items source) (hb : b ∈ items source)
    (h : a.span.start = b.span.start) : a = b :=
  List.inj_on_of_nodup_map (starts_nodup source) ha hb h

/-! ## The faults of a source -/

def Item.fault? : Item → Option ParseError
  | .lexeme _ => none
  | .fault error => some error

def faults (source : String) : List ParseError := (items source).filterMap Item.fault?

theorem mem_faults : error ∈ faults source ↔ .fault error ∈ items source := by
  rw [faults, List.mem_filterMap]
  constructor
  · rintro ⟨item, hmem, hfault⟩
    cases item with
    | lexeme lexeme => cases hfault
    | fault found =>
        cases hfault
        exact hmem
  · exact fun hmem => ⟨_, hmem, rfl⟩

theorem faults_nodup (source : String) : (faults source).Nodup := by
  refine List.Nodup.filterMap ?_ (List.Nodup.of_map _ (starts_nodup source))
  intro a b error ha hb
  cases a with
  | lexeme _ => cases ha
  | fault _ =>
      cases b with
      | lexeme _ => cases hb
      | fault _ =>
          cases ha
          cases hb
          rfl

theorem filterMap_fault?_significantItems (source : String) :
    (significantItems source).filterMap Item.fault? = faults source := by
  unfold significantItems faults
  induction items source with
  | nil => rfl
  | cons item rest ih =>
      cases item with
      | fault error =>
          rw [List.filter_cons_of_pos rfl]
          exact congrArg (error :: ·) ih
      | lexeme lexeme =>
          rw [List.filterMap_cons_none rfl, List.filter_cons]
          split
          · rw [List.filterMap_cons_none rfl, ih]
          · exact ih

end TexMath
