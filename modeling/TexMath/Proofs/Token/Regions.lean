import TexMath.Proofs.Reading.Termination
import TexMath.Proofs.Token.Lookahead

/-!
# The regions of a source

A call of the scanner reads the next item, and passes over the comments in front of it.  The calls
on a source cut it into regions: the text of a token, the white space left out behind a command, a
comment, or all that was read for text that forms no token.  The regions lie end to end, so every
byte of the source is in one of them and in one only.
-/

namespace TexMath

open Text

def Item.isComment : Item → Bool
  | lexeme l => l.token == .comment
  | fault _ => false

/-! ## Calls of the scanner -/

namespace Cursor

variable {cursor after : Cursor} {source : String} {lexeme : Lexeme} {text : List Char}

theorem scan_of_nil (h : cursor.rest = []) :
    cursor.scan = (.lexeme (.ending cursor.offset), cursor) := by
  unfold scan
  rw [h]
  rfl

theorem ne_nil_of_isComment (h : cursor.scan.1.isComment = true) : cursor.rest ≠ [] := by
  intro hrest
  simp [scan_of_nil hrest, Item.isComment, Lexeme.ending] at h

def next (cursor : Cursor) : Item × Cursor :=
  if _h : cursor.scan.1.isComment then cursor.scan.2.next else cursor.scan
termination_by cursor.rest.length
decreasing_by exact length_scan_lt (ne_nil_of_isComment _h)

def behind (cursor : Cursor) : Nat → Cursor
  | 0 => cursor
  | count + 1 => cursor.next.2.behind count

/-- What a call gives behind some other calls. -/
def result (cursor : Cursor) (count : Nat) : Item := (cursor.behind count).next.1

theorem behind_succ (cursor : Cursor) (count : Nat) :
    cursor.behind (count + 1) = (cursor.behind count).next.2 := by
  induction count generalizing cursor with
  | zero => rfl
  | succ count ih => exact ih cursor.next.2

theorem next_of_isComment (h : cursor.scan.1.isComment = true) :
    cursor.next = cursor.scan.2.next := by
  rw [next, dif_pos h]

theorem next_of_not_isComment (h : cursor.scan.1.isComment = false) :
    cursor.next = cursor.scan := by
  rw [next, dif_neg (by simp [h])]

theorem next_of_nil (h : cursor.rest = []) :
    cursor.next = (.lexeme (.ending cursor.offset), cursor) := by
  have hscan := scan_of_nil h
  rw [next_of_not_isComment (by rw [hscan]; rfl), hscan]

theorem result_of_nil (h : cursor.rest = []) (count : Nat) :
    cursor.result count = .lexeme (.ending cursor.offset) := by
  have hbehind : cursor.behind count = cursor := by
    induction count with
    | zero => rfl
    | succ count ih => rwa [behind, next_of_nil h]
  rw [result, hbehind, next_of_nil h]

theorem exists_scan_of_next (cursor : Cursor) :
    ∃ text place, cursor.Passes text place ∧ cursor.next = place.scan ∧
      place.scan.1.isComment = false := by
  induction cursor using next.induct with
  | case1 cursor hcomment ih =>
      obtain ⟨text, place, hpasses, hnext, hplace⟩ := ih
      obtain ⟨lead, hlead⟩ := scan_passes (ne_nil_of_isComment hcomment)
      exact ⟨lead ++ text, place, hlead.trans hpasses, next_of_isComment hcomment ▸ hnext, hplace⟩
  | case2 cursor hcomment =>
      rw [Bool.not_eq_true] at hcomment
      exact ⟨[], cursor, .refl cursor, next_of_not_isComment hcomment, hcomment⟩

theorem scanned_of_scan {item : Item} (hrest : cursor.rest ≠ [])
    (h : cursor.scan = (item, after)) : cursor.Scanned item after := by
  simpa [h] using scan_scanned hrest

theorem exists_passes_scan (cursor : Cursor) : ∃ text, cursor.Passes text cursor.scan.2 := by
  by_cases hrest : cursor.rest = []
  · rw [scan_of_nil hrest]
    exact ⟨[], .refl cursor⟩
  · exact scan_passes hrest

theorem behind_standsIn (hstands : cursor.StandsIn source) (count : Nat) :
    (cursor.behind count).StandsIn source := by
  induction count generalizing cursor with
  | zero => exact hstands
  | succ count ih =>
      obtain ⟨lead, place, hlead, hnext, -⟩ := exists_scan_of_next cursor
      obtain ⟨text, htext⟩ := exists_passes_scan place
      exact ih (hnext ▸ (hstands.behind hlead).behind htext)

/-! ## What is read for an item -/

theorem scanEnvironment_stop {first : Cursor} {lead : List Char} {command : String}
    {token : Environment → Token}
    (h : scanEnvironment first lead command token cursor = (.lexeme lexeme, after)) :
    after.offset = lexeme.span.stop := by
  unfold scanEnvironment at h
  split at h
  · cases h
  · dsimp only at h
    split at h <;> cases h
    rfl

theorem scan_stop (h : cursor.scan = (.lexeme lexeme, after))
    (hcommand : ∀ name, lexeme.token ≠ .command name) : after.offset = lexeme.span.stop := by
  unfold scan at h
  split at h
  · cases h
    rfl
  · dsimp only at h
    split at h
    · cases h
      rfl
    · split at h
      · cases h
        rfl
      · split at h
        · unfold scanCommand at h
          split at h
          · cases h
          · dsimp only at h
            split at h
            · exact scanEnvironment_stop h
            · exact scanEnvironment_stop h
            · cases h
              exact absurd rfl (hcommand _)
        · split at h <;> cases h
          rfl

theorem scan_span (cursor : Cursor) :
    cursor.offset ≤ cursor.scan.1.span.start ∧
      cursor.scan.1.span.start ≤ cursor.scan.1.span.stop ∧
      cursor.scan.1.span.stop ≤ cursor.scan.2.offset := by
  by_cases hrest : cursor.rest = []
  · rw [scan_of_nil hrest]
    exact ⟨Nat.le_refl _, Nat.le_refl _, Nat.le_refl _⟩
  rcases hscan : cursor.scan with ⟨item, after⟩
  have hscanned := scanned_of_scan hrest hscan
  cases item with
  | lexeme lexeme =>
      obtain ⟨hpasses, -, hspan, hspaces, -⟩ := hscanned
      have hmiddle := hpasses.offset
      have hafter := hspaces.offset
      simp only [Item.span, hspan, spanTo]
      omega
  | fault error =>
      obtain ⟨hlead, htext, hskipped, hspan, -⟩ := scan_faulted hscan
      have hfirst := hlead.offset
      have hlast := htext.offset
      have hafter := hskipped.offset
      simp only [Item.span, hspan, spanTo]
      omega

theorem next_span (cursor : Cursor) :
    cursor.offset ≤ cursor.next.1.span.start ∧
      cursor.next.1.span.start ≤ cursor.next.1.span.stop ∧
      cursor.next.1.span.stop ≤ cursor.next.2.offset := by
  obtain ⟨text, place, hpasses, hnext, -⟩ := exists_scan_of_next cursor
  have hspan := scan_span place
  have hoffset := hpasses.offset
  rw [hnext]
  omega

theorem offset_behind_le {first last : Nat} (cursor : Cursor) (h : first ≤ last) :
    (cursor.behind first).offset ≤ (cursor.behind last).offset := by
  induction h with
  | refl => exact Nat.le_refl _
  | @step last _ ih =>
      have hspan := next_span (cursor.behind last)
      rw [behind_succ]
      omega

theorem scan_covers (hstands : cursor.StandsIn source) :
    ∃ slice, cursor.scan.1.span.Covers source slice := by
  by_cases hrest : cursor.rest = []
  · rw [scan_of_nil hrest]
    exact ⟨_, hstands.covers (.refl cursor)⟩
  rcases hscan : cursor.scan with ⟨item, after⟩
  cases item with
  | lexeme lexeme =>
      obtain ⟨hpasses, -, hspan, -, -⟩ := scanned_of_scan hrest hscan
      exact ⟨_, hspan ▸ hstands.covers hpasses⟩
  | fault error =>
      obtain ⟨hlead, htext, -, hspan, -⟩ := scan_faulted hscan
      exact ⟨_, hspan ▸ (hstands.behind hlead).covers htext⟩

end Cursor

/-! ## Regions -/

inductive Region where
  | token (lexeme : Lexeme)
  /-- The white space left out behind a command, up to an offset. -/
  | skipped (command : Lexeme) (stop : Nat)
  | comment (lexeme : Lexeme)
  /-- All that is read for an error, more than its own span. -/
  | fault (error : ParseError) (span : Span)

namespace Region

def span : Region → Span
  | token lexeme => lexeme.span
  | skipped command stop => ⟨command.span.stop, stop⟩
  | comment lexeme => lexeme.span
  | fault _ span => span

def item? : Region → Option Item
  | token lexeme => some (.lexeme lexeme)
  | fault error _ => some (.fault error)
  | skipped .. | comment _ => none

def ofScan (first after : Cursor) : Item → List Region
  | .fault error => [fault error (first.spanTo after)]
  | .lexeme lexeme =>
      match lexeme.token with
      | .comment => [comment lexeme]
      | .command _ => [token lexeme, skipped lexeme after.offset]
      | _ => [token lexeme]

def ReadIn (source : String) : Region → Prop
  | token lexeme => lexeme.span.Covers source lexeme.text ∧ lexeme.token ≠ .comment
  | skipped command stop =>
      (∃ name, command.token = .command name) ∧ ∃ spaces : List Char,
        (∀ c ∈ spaces, isSpacing c = true) ∧
          (⟨command.span.stop, stop⟩ : Span).Covers source (String.ofList spaces)
  | comment lexeme => lexeme.span.Covers source lexeme.text ∧ lexeme.token = .comment
  | fault error span =>
      (∃ slice, slice ≠ "" ∧ span.Covers source slice) ∧
        span.start ≤ error.span.start ∧ error.span.stop ≤ span.stop

def Fill (start : Nat) : List Region → Nat → Prop
  | [], stop => start = stop
  | region :: regions, stop =>
      region.span.start = start ∧ start ≤ region.span.stop ∧ Fill region.span.stop regions stop

variable {start middle stop byte : Nat} {front back regions : List Region}

theorem Fill.append (hfront : Fill start front middle) (hback : Fill middle back stop) :
    Fill start (front ++ back) stop := by
  induction front generalizing start with
  | nil => exact (show start = middle from hfront) ▸ hback
  | cons region front ih => exact ⟨hfront.1, hfront.2.1, ih hfront.2.2⟩

theorem Fill.start_le {region : Region} (h : Fill start regions stop) (hmem : region ∈ regions) :
    start ≤ region.span.start := by
  induction regions generalizing start with
  | nil => cases hmem
  | cons first regions ih =>
      obtain ⟨hstart, hle, hrest⟩ := h
      rcases List.mem_cons.mp hmem with rfl | hmem
      · exact hstart.ge
      · exact Nat.le_trans hle (ih hrest hmem)

theorem Fill.existsUnique (h : Fill start regions stop) (hlow : start ≤ byte)
    (hhigh : byte < stop) : ∃! region, region ∈ regions ∧ region.span.Contains byte := by
  induction regions generalizing start with
  | nil => exact absurd (show start = stop from h) (by omega)
  | cons first regions ih =>
      obtain ⟨hstart, hle, hrest⟩ := h
      by_cases hin : byte < first.span.stop
      · refine ⟨first, ⟨List.mem_cons_self, by omega, hin⟩, ?_⟩
        rintro region ⟨hmem, hcontains, -⟩
        rcases List.mem_cons.mp hmem with rfl | hmem
        · rfl
        · have hlater := hrest.start_le hmem
          omega
      · obtain ⟨found, ⟨hmem, hcontains⟩, hunique⟩ := ih hrest (by omega)
        refine ⟨found, ⟨List.mem_cons_of_mem _ hmem, hcontains⟩, ?_⟩
        rintro region ⟨hregion, hbyte⟩
        rcases List.mem_cons.mp hregion with rfl | hregion
        · exact absurd hbyte.2 hin
        · exact hunique region ⟨hregion, hbyte⟩

end Region

namespace Cursor

variable {cursor : Cursor} {source : String}

def regions (cursor : Cursor) : List Region :=
  if _h : cursor.rest = [] then []
  else Region.ofScan cursor cursor.scan.2 cursor.scan.1 ++ cursor.scan.2.regions
termination_by cursor.rest.length
decreasing_by exact length_scan_lt _h

theorem regions_of_nil (h : cursor.rest = []) : cursor.regions = [] := by
  rw [regions, dif_pos h]

theorem regions_of_ne_nil (h : cursor.rest ≠ []) :
    cursor.regions = Region.ofScan cursor cursor.scan.2 cursor.scan.1 ++ cursor.scan.2.regions := by
  rw [regions, dif_neg h]

theorem fill_ofScan (h : cursor.rest ≠ []) :
    Region.Fill cursor.offset (Region.ofScan cursor cursor.scan.2 cursor.scan.1)
      cursor.scan.2.offset := by
  rcases hscan : cursor.scan with ⟨item, after⟩
  have hscanned := scanned_of_scan h hscan
  cases item with
  | lexeme lexeme =>
      obtain ⟨hpasses, -, hspan, hspaces, -⟩ := hscanned
      have hmiddle := hpasses.offset
      have hafter := hspaces.offset
      have hstart : lexeme.span.start = cursor.offset := by rw [hspan, spanTo]
      have hle : cursor.offset ≤ lexeme.span.stop := by
        simp only [hspan, spanTo]
        omega
      have hstop : lexeme.span.stop ≤ after.offset := by
        simp only [hspan, spanTo]
        omega
      simp only [Region.ofScan]
      -- A comment, a command with the white space behind it, or any other token.
      split
      · rename_i htoken
        exact ⟨hstart, hle, (scan_stop hscan (by simp [htoken])).symm⟩
      · exact ⟨hstart, hle, rfl, hstop, rfl⟩
      · rename_i hcommand
        exact ⟨hstart, hle, (scan_stop hscan hcommand).symm⟩
  | fault error =>
      cases hscanned with
      | fault hpasses _ => exact ⟨rfl, by simp [Region.span, spanTo, hpasses.offset], rfl⟩

theorem fill_regions (cursor : Cursor) :
    Region.Fill cursor.offset cursor.regions (cursor.offset + width cursor.rest) := by
  induction cursor using regions.induct with
  | case1 cursor hrest => simp [regions_of_nil hrest, hrest, Region.Fill]
  | case2 cursor hrest ih =>
      obtain ⟨text, hpasses⟩ := scan_passes hrest
      rw [hpasses.offset, Nat.add_assoc, ← width_append, ← hpasses.rest] at ih
      rw [regions_of_ne_nil hrest]
      exact Region.Fill.append (hpasses.offset ▸ fill_ofScan hrest) ih

theorem readIn_of_mem_ofScan {region : Region} (hstands : cursor.StandsIn source)
    (h : cursor.rest ≠ []) (hmem : region ∈ Region.ofScan cursor cursor.scan.2 cursor.scan.1) :
    region.ReadIn source := by
  have hspan := scan_span cursor
  rcases hscan : cursor.scan with ⟨item, after⟩
  have hscanned := scanned_of_scan h hscan
  rw [hscan] at hspan hmem
  cases item with
  | lexeme lexeme =>
      obtain @⟨_, middle, _, spaces, hpasses, hspelling, hlexeme, hspaces, hspacing⟩ := hscanned
      have hcovers : lexeme.span.Covers source lexeme.text := by
        simpa [hlexeme] using hstands.covers hpasses
      simp only [Region.ofScan] at hmem
      split at hmem
      · rename_i htoken
        obtain rfl := List.mem_singleton.mp hmem
        exact ⟨hcovers, htoken⟩
      · rename_i name htoken
        simp only [List.mem_cons, List.not_mem_nil, or_false] at hmem
        rcases hmem with rfl | rfl
        · exact ⟨hcovers, by simp [htoken]⟩
        · refine ⟨⟨name, htoken⟩, spaces, hspacing, ?_⟩
          simpa [hlexeme, spanTo] using (hstands.behind hpasses).covers hspaces
      · rename_i htoken _
        obtain rfl := List.mem_singleton.mp hmem
        exact ⟨hcovers, htoken⟩
  | fault error =>
      cases hscanned with
      | fault hpasses hne =>
          obtain rfl := List.mem_singleton.mp hmem
          exact ⟨⟨_, by simpa using hne, hstands.covers hpasses⟩, hspan.1, hspan.2.2⟩

theorem readIn_of_mem_regions {region : Region} (hstands : cursor.StandsIn source)
    (hmem : region ∈ cursor.regions) : region.ReadIn source := by
  induction cursor using regions.induct with
  | case1 cursor hrest => simp [regions_of_nil hrest] at hmem
  | case2 cursor hrest ih =>
      rw [regions_of_ne_nil hrest, List.mem_append] at hmem
      rcases hmem with hmem | hmem
      · exact readIn_of_mem_ofScan hstands hrest hmem
      · obtain ⟨text, hpasses⟩ := scan_passes hrest
        exact ih (hstands.behind hpasses) hmem

/-! ## Calls and regions -/

theorem filterMap_item?_ofScan (first after : Cursor) (item : Item) :
    (Region.ofScan first after item).filterMap Region.item? =
      if item.isComment then [] else [item] := by
  cases item with
  | fault error => rfl
  | lexeme lexeme =>
      simp only [Region.ofScan]
      split <;> simp_all [Region.item?, Item.isComment]

theorem result_eq (cursor : Cursor) (count : Nat) :
    cursor.result count = (cursor.regions.filterMap Region.item?)[count]?.getD
      (.lexeme (.ending (cursor.offset + width cursor.rest))) := by
  induction cursor using regions.induct generalizing count with
  | case1 cursor hrest =>
      simp [result_of_nil hrest, regions_of_nil hrest, hrest]
  | case2 cursor hrest ih =>
      obtain ⟨text, hpasses⟩ := scan_passes hrest
      rw [hpasses.offset, Nat.add_assoc, ← width_append, ← hpasses.rest] at ih
      rw [regions_of_ne_nil hrest, List.filterMap_append, filterMap_item?_ofScan]
      cases hcomment : cursor.scan.1.isComment with
      | true =>
          -- A comment has a region, and no call gives it.
          have hsame : cursor.result count = cursor.scan.2.result count := by
            cases count <;> simp only [result, behind, next_of_isComment hcomment]
          simpa [hsame] using ih count
      | false =>
          cases count with
          | zero => simp [result, behind, next_of_not_isComment hcomment]
          | succ count => simpa [result, behind, next_of_not_isComment hcomment] using ih count

theorem token_ne_of_mem_regions {region : Region} (hmem : region ∈ cursor.regions)
    (hitem : region.item? = some (.lexeme lexeme)) : lexeme.token ≠ .sourceEnd := by
  induction cursor using regions.induct with
  | case1 cursor hrest => simp [regions_of_nil hrest] at hmem
  | case2 cursor hrest ih =>
      rw [regions_of_ne_nil hrest, List.mem_append] at hmem
      rcases hmem with hmem | hmem
      · have hscan : .lexeme lexeme ∈ (Region.ofScan cursor cursor.scan.2 cursor.scan.1).filterMap
            Region.item? := List.mem_filterMap.mpr ⟨region, hmem, hitem⟩
        rw [filterMap_item?_ofScan] at hscan
        split at hscan
        · cases hscan
        · exact token_scan_ne hrest (List.mem_singleton.mp hscan).symm
      · exact ih hmem

theorem result_of_sourceEnd {count : Nat} (h : cursor.result count = .lexeme lexeme)
    (hend : lexeme.token = .sourceEnd) {later : Nat} (hle : count ≤ later) :
    cursor.result later = .lexeme (.ending (cursor.offset + width cursor.rest)) := by
  rw [result_eq] at h ⊢
  have hnone : (cursor.regions.filterMap Region.item?)[count]? = none := by
    cases hitem : (cursor.regions.filterMap Region.item?)[count]? with
    | none => rfl
    | some item =>
        rw [hitem, Option.getD_some] at h
        subst h
        obtain ⟨region, hmem, hregion⟩ := List.mem_filterMap.mp (List.mem_of_getElem? hitem)
        exact absurd hend (token_ne_of_mem_regions hmem hregion)
  have hlater : (cursor.regions.filterMap Region.item?)[later]? = none :=
    List.getElem?_eq_none (Nat.le_trans (List.getElem?_eq_none_iff.mp hnone) hle)
  rw [hlater, Option.getD_none]

theorem offset_lt_of_result {count : Nat}
    (h : cursor.result count ≠ .lexeme (.ending (cursor.offset + width cursor.rest))) :
    (cursor.behind count).offset < (cursor.behind (count + 1)).offset := by
  obtain ⟨text, place, hpasses, hnext, -⟩ := exists_scan_of_next (cursor.behind count)
  -- Something is left behind the comments, or the call would give the end.
  have hrest : place.rest ≠ [] := by
    intro hnil
    have hresult : cursor.result count = .lexeme (.ending place.offset) := by
      rw [result, hnext, scan_of_nil hnil]
    exact h (result_of_sourceEnd hresult rfl (Nat.le_refl count))
  have hplace := scan_offset_lt hrest
  have hoffset := hpasses.offset
  rw [behind_succ, hnext]
  omega

/-! ## The text of a token alone -/

theorem scan_blank {spaces : List Char} (hne : spaces ≠ [])
    (hspaces : ∀ c ∈ spaces, isSpacing c = true) :
    (⟨0, spaces⟩ : Cursor).scan =
      (.lexeme ⟨.blank, ⟨0, width spaces⟩, String.ofList spaces⟩, ⟨width spaces, []⟩) := by
  obtain ⟨c, rest, rfl⟩ := List.exists_cons_of_ne_nil hne
  have htake := List.takeWhile_eq_self_iff.mpr hspaces
  have hdrop := List.dropWhile_eq_nil_iff.mpr hspaces
  simp only [scan, hspaces c List.mem_cons_self, if_true, pastRun, run, htake, hdrop, spanTo,
    Nat.zero_add]

theorem scan_alone {token : Token} {rest : List Char} (h : token.Spelling text rest) :
    (⟨0, text⟩ : Cursor).scan =
      (.lexeme ⟨token, ⟨0, width text⟩, String.ofList text⟩, ⟨width text, []⟩) := by
  by_cases hblank : token = .blank
  · subst hblank
    exact scan_blank h.ne_nil h.isSpacing_of_blank
  · have halone : token.Spelling text [] :=
      (show token.Spelling text ([] ++ rest) from h).of_append
    obtain ⟨⟨offset, afterRest⟩, spaces, hscan, hpasses, -⟩ := halone.scan_eq hblank 0
    obtain ⟨rfl, hrest⟩ := List.append_eq_nil_iff.mp hpasses.rest.symm
    have hoffset := hpasses.offset
    simp_all

theorem spelling_of_result (hstands : cursor.StandsIn source) {count : Nat}
    (h : cursor.result count = .lexeme lexeme) :
    lexeme.span.Covers source lexeme.text ∧ (Item.lexeme lexeme).isComment = false ∧
      (lexeme = .ending lexeme.span.stop ∨
        ∃ rest, lexeme.token.Spelling lexeme.text.toList rest) := by
  obtain ⟨_, place, hpasses, hnext, hcomment⟩ := exists_scan_of_next (cursor.behind count)
  have hplace := (behind_standsIn hstands count).behind hpasses
  rw [result, hnext] at h
  by_cases hrest : place.rest = []
  · rw [scan_of_nil hrest] at h
    cases h
    exact ⟨hplace.covers (.refl place), rfl, .inl rfl⟩
  have hscanned := scan_scanned hrest
  rw [h] at hcomment hscanned
  cases hscanned with
  | lexeme htext hspelling hspan _ _ =>
      have hcovers := hplace.covers htext
      rw [String.ofList_toList, ← hspan] at hcovers
      exact ⟨hcovers, hcomment, .inr ⟨_, hspelling⟩⟩

theorem result_alone (hstands : cursor.StandsIn source) {count : Nat}
    (h : cursor.result count = .lexeme lexeme) :
    (start lexeme.text).result 0 =
        .lexeme { lexeme with span := ⟨0, lexeme.text.utf8ByteSize⟩ } ∧
      ∀ later, (start lexeme.text).result (later + 1) =
        .lexeme (.ending lexeme.text.utf8ByteSize) := by
  obtain ⟨-, hcomment, hend | ⟨rest, hspelling⟩⟩ := spelling_of_result hstands h
  · rw [hend]
    exact ⟨result_of_nil rfl 0, fun later => result_of_nil rfl (later + 1)⟩
  · have hscan : (start lexeme.text).scan =
        (.lexeme { lexeme with span := ⟨0, lexeme.text.utf8ByteSize⟩ },
          ⟨lexeme.text.utf8ByteSize, []⟩) := by
      simpa [start, width_toList] using scan_alone hspelling
    have hnext : (start lexeme.text).next = (start lexeme.text).scan :=
      next_of_not_isComment (by rwa [hscan])
    refine ⟨by rw [result, behind, hnext, hscan], fun later => ?_⟩
    have hbehind : (start lexeme.text).result (later + 1) =
        (⟨lexeme.text.utf8ByteSize, []⟩ : Cursor).result later := by
      rw [result, behind, hnext, hscan, result]
    rw [hbehind, result_of_nil rfl]

end Cursor

/-! ## The whole source -/

def regions (source : String) : List Region := (Cursor.start source).regions

def call (source : String) (count : Nat) : Item := (Cursor.start source).result count

def callOffset (source : String) (count : Nat) : Nat := ((Cursor.start source).behind count).offset

/-- The calls of the scanner go through all of the source and leave nothing out. -/
structure Partitioned (source : String) : Prop where
  consumes : ∀ count, call source count ≠ .lexeme (.ending source.utf8ByteSize) →
    callOffset source count < callOffset source (count + 1)
  ordered : ∀ count later, count < later →
    (call source count).span.stop ≤ (call source later).span.start
  covers : ∀ count, ∃ slice, (call source count).span.Covers source slice
  calls : ∀ count, call source count =
    ((regions source).filterMap Region.item?)[count]?.getD (.lexeme (.ending source.utf8ByteSize))
  readIn : ∀ region ∈ regions source, region.ReadIn source
  region : ∀ byte < source.utf8ByteSize,
    ∃! region, region ∈ regions source ∧ region.span.Contains byte
  ends : ∃ count, call source count = .lexeme (.ending source.utf8ByteSize)
  stays : ∀ count lexeme, call source count = .lexeme lexeme → lexeme.token = .sourceEnd →
    ∀ later ≥ count, call source later = .lexeme (.ending source.utf8ByteSize)
  alone : ∀ count lexeme, call source count = .lexeme lexeme →
    lexeme.span.Covers source lexeme.text ∧
      call lexeme.text 0 = .lexeme { lexeme with span := ⟨0, lexeme.text.utf8ByteSize⟩ } ∧
      ∀ later, call lexeme.text (later + 1) = .lexeme (.ending lexeme.text.utf8ByteSize)

theorem source_partitioned (source : String) : Partitioned source := by
  have hsize : (Cursor.start source).offset + width (Cursor.start source).rest =
      source.utf8ByteSize := by
    simp [Cursor.start, width_toList]
  have hcalls := (Cursor.start source).result_eq
  have hstands := Cursor.start_standsIn source
  rw [hsize] at hcalls
  constructor
  case consumes => exact fun count hend => Cursor.offset_lt_of_result (by rwa [hsize])
  case ordered =>
    intro count later hlt
    have hcount := Cursor.next_span ((Cursor.start source).behind count)
    have hlater := Cursor.next_span ((Cursor.start source).behind later)
    have hplaces := Cursor.offset_behind_le (Cursor.start source) hlt
    rw [Cursor.behind_succ] at hplaces
    exact Nat.le_trans hcount.2.2 (Nat.le_trans hplaces hlater.1)
  case covers =>
    intro count
    obtain ⟨text, place, hpasses, hnext, -⟩ :=
      Cursor.exists_scan_of_next ((Cursor.start source).behind count)
    rw [call, Cursor.result, hnext]
    exact Cursor.scan_covers ((Cursor.behind_standsIn hstands count).behind hpasses)
  case calls => exact hcalls
  case readIn => exact fun region hmem => Cursor.readIn_of_mem_regions hstands hmem
  case region =>
    intro byte hbyte
    have hfill := (Cursor.start source).fill_regions
    rw [hsize] at hfill
    exact hfill.existsUnique (Nat.zero_le byte) hbyte
  case ends =>
    exact ⟨_, (hcalls _).trans (by rw [List.getElem?_eq_none (Nat.le_refl _), Option.getD_none])⟩
  case stays =>
    intro count lexeme hcall hend later hle
    rw [← hsize]
    exact Cursor.result_of_sourceEnd hcall hend hle
  case alone =>
    intro count lexeme hcall
    exact ⟨(Cursor.spelling_of_result hstands hcall).1, Cursor.result_alone hstands hcall⟩

end TexMath
