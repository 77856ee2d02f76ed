import TexMath.Proofs.Token.Lookahead

/-!
# Texts that scan by themselves

`Leads` says that the text in front of the rest scans to some items, with the rest behind it.  Such
a text scans to the same items in front of another rest, and it may be cut off there.  Every lexeme
of a source has such a text in front of it.
-/

namespace TexMath

open Text

/-! ## The first item -/

namespace Cursor

variable {offset : Nat} {chars spaces rest : List Char}

theorem significant_pastRun (offset : Nat) (chars : List Char) :
    (⟨offset, chars⟩ : Cursor).significant =
      ((⟨offset, chars⟩ : Cursor).pastRun isSpacing).significant := by
  cases chars with
  | nil => rfl
  | cons c chars =>
      by_cases hspacing : isSpacing c = true
      · have hscan : ∃ lexeme : Lexeme, lexeme.token = .blank ∧
            (⟨offset, c :: chars⟩ : Cursor).scan =
              (.lexeme lexeme, (⟨offset, c :: chars⟩ : Cursor).pastRun isSpacing) := by
          simp only [scan, hspacing, if_true]
          exact ⟨_, rfl, rfl⟩
        obtain ⟨lexeme, htoken, hscan⟩ := hscan
        rw [significant_of_ne_nil (by simp), hscan]
        simp [Item.isSignificant, htoken, Token.isTrivia]
      · simp [pastRun, run, hspacing]

theorem significant_spaces (hspaces : ∀ c ∈ spaces, isSpacing c = true) (offset : Nat)
    (rest : List Char) :
    (⟨offset, spaces ++ rest⟩ : Cursor).significant =
      (⟨offset + width spaces, rest⟩ : Cursor).significant := by
  rw [significant_pastRun, significant_pastRun (offset + width spaces)]
  simp only [pastRun, run, List.takeWhile_append_of_pos hspaces,
    List.dropWhile_append_of_pos hspaces, width_append, Nat.add_assoc]

theorem significant_of_spelling {lexeme : Lexeme}
    (h : Token.Spelling lexeme.token lexeme.text.toList rest)
    (hstop : lexeme.span.stop = lexeme.span.start + width lexeme.text.toList) :
    (⟨lexeme.span.start, lexeme.text.toList ++ rest⟩ : Cursor).significant =
      [Item.lexeme lexeme].filter Item.isSignificant ++
        (⟨lexeme.span.stop, rest⟩ : Cursor).significant := by
  obtain ⟨token, ⟨start, stop⟩, text⟩ := lexeme
  dsimp only at h hstop ⊢
  subst hstop
  by_cases hblank : token = .blank
  · subst hblank
    exact significant_spaces h.isSpacing_of_blank start rest
  · obtain ⟨after, spaces, hscan, hbehind, hspaces⟩ := h.scan_eq hblank start
    have hafter : (⟨start + width text.toList, rest⟩ : Cursor).significant = after.significant := by
      have hrest := hbehind.rest
      have hoffset := hbehind.offset
      dsimp only at hrest hoffset
      rw [hrest, significant_spaces hspaces, ← hoffset]
    rw [significant_of_ne_nil (by simp [h.ne_nil]), hscan, String.ofList_toList, hafter]
    cases htrivia : token.isTrivia <;> simp [Item.isSignificant, htrivia]

end Cursor

/-! ## Texts in front of a rest -/

/-- The text, which starts at the offset, scans to the items when the rest stands behind it. -/
inductive Leads : Nat → List Char → List Item → List Char → Prop
  | nil {offset : Nat} {rest : List Char} : Leads offset [] [] rest
  | spaces {offset : Nat} {spaces text rest : List Char} {items : List Item} :
      (∀ c ∈ spaces, isSpacing c = true) → Leads (offset + width spaces) text items rest →
      Leads offset (spaces ++ text) items rest
  | lexeme {lexeme : Lexeme} {text rest : List Char} {items : List Item} :
      Token.Spelling lexeme.token lexeme.text.toList (text ++ rest) →
      lexeme.span.stop = lexeme.span.start + width lexeme.text.toList →
      Leads lexeme.span.stop text items rest →
      Leads lexeme.span.start (lexeme.text.toList ++ text) (.lexeme lexeme :: items) rest
  | fault {offset : Nat} {error : ParseError} {lead text rest : List Char} {items : List Item} :
      error.Spelling offset lead →
      Leads (offset + width lead) text items rest →
      Leads offset (lead ++ text) (.fault error :: items) rest

namespace Leads

variable {offset : Nat} {text rest other more : List Char} {items : List Item}

theorem significant (h : Leads offset text items rest) :
    (⟨offset, text ++ rest⟩ : Cursor).significant =
      items.filter Item.isSignificant ++ (⟨offset + width text, rest⟩ : Cursor).significant := by
  induction h with
  | nil => rfl
  | spaces hspaces _ ih =>
      rw [List.append_assoc, Cursor.significant_spaces hspaces, ih, width_append, Nat.add_assoc]
  | lexeme hspelling hstop _ ih =>
      rw [List.append_assoc, Cursor.significant_of_spelling hspelling hstop, ih, width_append,
        ← Nat.add_assoc, ← hstop, ← List.append_assoc, ← List.filter_append, List.singleton_append]
  | fault hspelling _ ih =>
      rw [List.append_assoc, Cursor.significant_of_ne_nil (by simp [hspelling.ne_nil]),
        hspelling.scan, width_append, List.filter_cons_of_pos rfl, ← Nat.add_assoc]
      simp only [Item.isSignificant, if_true, ih, List.cons_append]

theorem in_front_of (h : Leads offset text items rest) (hne : rest ≠ [])
    (hletter : NoLetter rest → NoLetter other) : Leads offset text items other := by
  induction h with
  | nil => exact .nil
  | spaces hspaces _ ih => exact .spaces hspaces (ih hne hletter)
  | @lexeme lexeme text rest items hspelling hstop _ ih =>
      refine .lexeme (hspelling.in_front_of ?_ fun _ => by simp [hne]) hstop (ih hne hletter)
      cases text with
      | nil => exact hletter
      | cons c text => exact id
  | fault hspelling _ ih => exact .fault hspelling (ih hne hletter)

theorem of_append (h : Leads offset text items (rest ++ more)) : Leads offset text items rest := by
  generalize hfollows : rest ++ more = follows at h
  induction h with
  | nil => exact .nil
  | spaces hspaces _ ih => exact .spaces hspaces (ih hfollows)
  | lexeme hspelling hstop _ ih =>
      rw [← hfollows, ← List.append_assoc] at hspelling
      exact .lexeme hspelling.of_append hstop (ih hfollows)
  | fault hspelling _ ih => exact .fault hspelling (ih hfollows)

theorem append {others : List Item} (h : Leads offset text items (more ++ rest))
    (hmore : Leads (offset + width text) more others rest) :
    Leads offset (text ++ more) (items ++ others) rest := by
  generalize hfollows : more ++ rest = follows at h
  induction h with
  | nil => simpa using hmore
  | spaces hspaces _ ih =>
      rw [List.append_assoc]
      refine .spaces hspaces (ih ?_ hfollows)
      rwa [Nat.add_assoc, ← width_append]
  | lexeme hspelling hstop _ ih =>
      rw [List.append_assoc]
      refine .lexeme ?_ hstop (ih ?_ hfollows)
      · rwa [List.append_assoc, hfollows]
      · rwa [hstop, Nat.add_assoc, ← width_append]
  | fault hspelling _ ih =>
      rw [List.append_assoc]
      refine .fault hspelling (ih ?_ hfollows)
      rwa [Nat.add_assoc, ← width_append]

theorem concat {lexeme : Lexeme} (h : Leads offset text items (lexeme.text.toList ++ rest))
    (hspelling : Token.Spelling lexeme.token lexeme.text.toList rest)
    (hstart : lexeme.span.start = offset + width text)
    (hstop : lexeme.span.stop = lexeme.span.start + width lexeme.text.toList) :
    Leads offset (text ++ lexeme.text.toList) (items ++ [.lexeme lexeme]) rest := by
  have hsingle : Leads lexeme.span.start (lexeme.text.toList ++ []) [.lexeme lexeme] rest :=
    .lexeme hspelling hstop .nil
  rw [hstart, List.append_nil] at hsingle
  exact h.append hsingle

theorem start_lt (h : Leads offset text items rest) {item : Item} (hmem : item ∈ items) :
    item.span.start < offset + width text := by
  induction h with
  | nil => cases hmem
  | spaces _ _ ih =>
      rw [width_append, ← Nat.add_assoc]
      exact ih hmem
  | @lexeme lexeme text rest items hspelling hstop _ ih =>
      have hpos : 0 < width lexeme.text.toList := hspelling.width_pos
      rw [width_append]
      rcases List.mem_cons.mp hmem with rfl | hmem
      · simp only [Item.span]
        omega
      · have hlater := ih hmem
        omega
  | @fault offset error lead text rest items hspelling _ ih =>
      rw [width_append]
      rcases List.mem_cons.mp hmem with rfl | hmem
      · have hstart := (Cursor.scan_faulted (hspelling.scan ['x'])).start_lt.2
        simp only [List.cons_ne_nil, or_false] at hstart
        simp only [Item.span]
        omega
      · have hlater := ih hmem
        omega

end Leads

theorem Cursor.exists_leads {cursor : Cursor} {bound : Nat} {lexeme : Lexeme}
    (h : .lexeme lexeme ∈ cursor.items bound) :
    ∃ front back items, cursor.rest = front ++ (lexeme.text.toList ++ back) ∧
      Leads cursor.offset front items (lexeme.text.toList ++ back) ∧
      Token.Spelling lexeme.token lexeme.text.toList back ∧
      lexeme.span.start = cursor.offset + width front ∧
      lexeme.span.stop = lexeme.span.start + width lexeme.text.toList := by
  induction bound generalizing cursor with
  | zero => cases h
  | succ bound ih =>
      by_cases hrest : cursor.rest = []
      · rw [items_of_nil hrest] at h
        cases h
      have hscanned := scan_scanned hrest
      rw [items_succ hrest, List.mem_cons] at h
      generalize hscan : cursor.scan = scanned at hscanned h
      obtain ⟨item, after⟩ := scanned
      dsimp only at hscanned h
      cases hscanned with
      | @lexeme found middle _ spaces hpasses hspelling hspan hbehind hspaces =>
          rw [hpasses.span_eq] at hspan
          rcases h with heq | hmem
          · cases heq
            refine ⟨[], middle.rest, [], hpasses.rest, .nil, hspelling, ?_, ?_⟩ <;>
              simp [hspan]
          · obtain ⟨front, back, items, hafter, hleads, hlexeme, hstart, hstop⟩ := ih hmem
            have hstopFound : found.span.stop = found.span.start + width found.text.toList := by
              rw [hspan]
            have hmiddle : middle.offset = found.span.stop := by rw [hpasses.offset, hspan]
            refine ⟨found.text.toList ++ (spaces ++ front), back, .lexeme found :: items, ?_, ?_,
              hlexeme, ?_, hstop⟩
            · rw [hpasses.rest, hbehind.rest, hafter]
              simp
            · rw [hbehind.rest, hafter] at hspelling
              rw [hbehind.offset, hmiddle] at hleads
              have hstartFound : cursor.offset = found.span.start := by rw [hspan]
              rw [hstartFound]
              exact .lexeme (by simpa using hspelling) hstopFound (.spaces hspaces hleads)
            · rw [hstart, hbehind.offset, hpasses.offset]
              simp [Nat.add_assoc]
      | @fault error _ _ hpasses hne =>
          rcases h with heq | hmem
          · cases heq
          · obtain ⟨front, back, items, hafter, hleads, hlexeme, hstart, hstop⟩ := ih hmem
            have hfollows : after.rest ≠ [] := by simp [hafter, hlexeme.ne_nil]
            obtain ⟨lead, hlead, hspelling⟩ := scan_local hscan hfollows
            have hoffset := hspelling.offset_of_scan hlead hscan
            refine ⟨lead ++ front, back, .fault error :: items, ?_, ?_, hlexeme, ?_, hstop⟩
            · rw [hlead, hafter, List.append_assoc]
            · rw [hoffset] at hleads
              exact .fault hspelling hleads
            · rw [hstart, hoffset, width_append, Nat.add_assoc]

end TexMath
