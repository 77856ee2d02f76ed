import TexMath.Proofs.Token.Places

/-!
# How far a scan looks ahead

A spelled token scans to itself with any text behind it that its spelling allows.  Text that forms
no token scans to the same fault whatever stands behind it, unless the source ends there: only then
may the fault be about what is missing.
-/

namespace TexMath

open Text

/-! ## Spelled tokens -/

namespace Token.Spelling

variable {token : Token} {text text' rest rest' : List Char}

theorem in_front_of (h : Spelling token text rest) (hletter : NoLetter rest → NoLetter rest')
    (hcomment : token = .comment → rest ≠ []) : Spelling token text rest' := by
  cases h with
  | blank hne hspaces => exact .blank hne hspaces
  | comment hbody => exact .comment hbody
  | lastComment => exact absurd rfl (hcomment rfl)
  | character htoken => exact .character htoken
  | command hname hrest => exact .command hname fun hword => hletter (hrest hword)
  | environmentBegin hspaces => exact .environmentBegin hspaces
  | environmentEnd hspaces => exact .environmentEnd hspaces

theorem comment_eq (h : Spelling .comment text rest) :
    text = '%' :: (⟨0, (text ++ rest).tail⟩ : Cursor).throughNext '\n' := by
  have hline : ∀ {body : List Char}, '\n' ∉ body → ∀ c ∈ body, (c != '\n') = true := by
    intro body hbody c hc
    rw [bne_iff_ne]
    rintro rfl
    exact hbody hc
  cases h with
  | comment hbody =>
      simp [Cursor.throughNext, Cursor.run, List.takeWhile_append_of_pos (hline hbody),
        List.dropWhile_append_of_pos (hline hbody)]
  | lastComment hbody =>
      have htake := List.takeWhile_eq_self_iff.mpr (hline hbody)
      have hdrop := List.dropWhile_eq_nil_iff.mpr (hline hbody)
      simp [Cursor.throughNext, Cursor.run, htake, hdrop]
  | character htoken => exact absurd (not_isTrivia_of_ofChar? htoken) (by simp [isTrivia])

theorem environment_eq {command : String} {environment : Environment}
    (h : environment.WrittenAs command (String.ofList text))
    (h' : environment.WrittenAs command (String.ofList text'))
    (heq : text ++ rest = text' ++ rest') : text = text' := by
  have hchars : ∀ {text : List Char}, environment.WrittenAs command (String.ofList text) →
      ∃ spaces : List Char, (∀ c ∈ spaces, isSpacing c = true) ∧
        text = command.toList ++ (spaces ++ '\x7b' :: (environment.name.toList ++ ['\x7d'])) := by
    rintro text ⟨spaces, hspaces, htext⟩
    refine ⟨spaces, hspaces, ?_⟩
    simpa using congrArg String.toList htext
  obtain ⟨spaces, hspaces, rfl⟩ := hchars h
  obtain ⟨spaces', hspaces', rfl⟩ := hchars h'
  have hbrace : isSpacing '\x7b' = false := by decide
  have hrun : ∀ {spaces : List Char} (rest : List Char), (∀ c ∈ spaces, isSpacing c = true) →
      (spaces ++ '\x7b' :: rest).takeWhile isSpacing = spaces := by
    intro spaces rest hspaces
    rw [List.takeWhile_append_of_pos hspaces]
    simp [hbrace]
  simp only [List.append_assoc, List.cons_append, List.append_cancel_left_eq] at heq
  have hsame := congrArg (List.takeWhile isSpacing) heq
  rw [hrun _ hspaces, hrun _ hspaces'] at hsame
  rw [hsame]

theorem text_eq (h : Spelling token text rest) (h' : Spelling token text' rest')
    (hblank : token ≠ .blank) (heq : text ++ rest = text' ++ rest') : text = text' := by
  have hwritten := h.written
  have hwritten' := h'.written
  cases token with
  | blank => exact absurd rfl hblank
  | comment => rw [h.comment_eq, h'.comment_eq, heq]
  | environmentBegin => exact environment_eq hwritten hwritten' heq
  | environmentEnd => exact environment_eq hwritten hwritten' heq
  | sourceEnd =>
      cases h with
      | character =>
          cases h' with
          | character => rw [(List.cons.inj heq).1]
  | _ => exact String.ofList_injective (hwritten.trans hwritten'.symm)

theorem scan_eq (h : Spelling token text rest) (hblank : token ≠ .blank) (offset : Nat) :
    ∃ after spaces, (⟨offset, text ++ rest⟩ : Cursor).scan =
        (.lexeme ⟨token, ⟨offset, offset + width text⟩, String.ofList text⟩, after) ∧
      (⟨offset + width text, rest⟩ : Cursor).Passes spaces after ∧
      ∀ c ∈ spaces, isSpacing c = true := by
  obtain ⟨_, hscans, -⟩ := h.scansTo
  obtain ⟨⟨_, span, own⟩, after, hscan, rfl, -⟩ := hscans offset
  have hscanned := @Cursor.scan_scanned ⟨offset, text ++ rest⟩ (by simp [h.ne_nil])
  rw [hscan] at hscanned
  cases hscanned with
  | @lexeme _ middle _ spaces hpasses hspelling hspan hbehind hspaces =>
      have htext := hspelling.text_eq h hblank hpasses.rest.symm
      dsimp only at htext
      have hmiddle : middle = ⟨offset + width text, rest⟩ := by
        have hrest := hpasses.rest
        have hoffset := hpasses.offset
        dsimp only at hrest hoffset
        rw [htext] at hrest hoffset
        obtain ⟨_, _⟩ := middle
        rw [List.append_cancel_left hrest]
        exact congrArg (Cursor.mk · _) hoffset
      subst hmiddle
      refine ⟨after, spaces, ?_, hbehind, hspaces⟩
      rw [hscan, show span = _ from hspan, ← htext, String.ofList_toList]
      rfl

end Token.Spelling

/-! ## Text that forms no token -/

/-- The text at the offset is a fault, whatever stands behind it. -/
structure ParseError.Spelling (error : ParseError) (offset : Nat) (text : List Char) : Prop where
  ne_nil : text ≠ []
  scan : ∀ rest, (⟨offset, text ++ rest⟩ : Cursor).scan =
    (.fault error, ⟨offset + width text, rest⟩)

theorem ParseError.Spelling.offset_of_scan {cursor after : Cursor} {error : ParseError}
    {item : Item} {text : List Char} (h : error.Spelling cursor.offset text)
    (hrest : cursor.rest = text ++ after.rest) (hscan : cursor.scan = (item, after)) :
    after.offset = cursor.offset + width text := by
  have hsame := h.scan after.rest
  rw [← hrest] at hsame
  exact congrArg (fun scanned => scanned.2.offset) (hscan.symm.trans hsame)

namespace Cursor

variable {cursor first after : Cursor} {error : ParseError}

theorem pastRun_of_neg {p : Char → Bool} {front : List Char} {c : Char}
    (hfront : ∀ x ∈ front, p x = true) (hc : p c = false) (offset : Nat) (back : List Char) :
    (⟨offset, front ++ c :: back⟩ : Cursor).run p = front ∧
      (⟨offset, front ++ c :: back⟩ : Cursor).pastRun p = ⟨offset + width front, c :: back⟩ := by
  have htake : (front ++ c :: back).takeWhile p = front := by
    simp [List.takeWhile_append_of_pos hfront, hc]
  have hdrop : (front ++ c :: back).dropWhile p = c :: back := by
    simp [List.dropWhile_append_of_pos hfront, hc]
  simp [run, pastRun, htake, hdrop]

theorem exists_run (p : Char → Bool) (chars : List Char) :
    (∀ x ∈ chars, p x = true) ∨ ∃ front c back, chars = front ++ c :: back ∧
      (∀ x ∈ front, p x = true) ∧ p c = false := by
  cases hdrop : chars.dropWhile p with
  | nil => exact .inl (List.dropWhile_eq_nil_iff.mp hdrop)
  | cons c back =>
      refine .inr ⟨chars.takeWhile p, c, back, ?_, fun x => List.mem_takeWhile_imp, ?_⟩
      · rw [← hdrop, List.takeWhile_append_dropWhile]
      · have hstop := List.head?_dropWhile_not p chars
        rwa [hdrop] at hstop

theorem pastNext_of_mem {body : List Char} {c : Char} (hbody : ∀ x ∈ body, (x != c) = true)
    (offset : Nat) (back : List Char) :
    (⟨offset, body ++ c :: back⟩ : Cursor).pastNext c = ⟨offset + width (body ++ [c]), back⟩ := by
  obtain ⟨hrun, hpast⟩ := pastRun_of_neg hbody (bne_self_eq_false c) offset back
  have hdrop : (body ++ c :: back).dropWhile (· != c) = c :: back := congrArg Cursor.rest hpast
  simp [pastNext, throughNext, hrun, hdrop]

theorem environmentName_closed {name : List Char}
    (hname : ∀ x ∈ name, isEnvironmentCharacter x = true) (command : String) (offset : Nat)
    (back : List Char) :
    (⟨offset, '\x7b' :: (name ++ '\x7d' :: back)⟩ : Cursor).environmentName command =
      (.ok name, ⟨offset + width ('\x7b' :: (name ++ ['\x7d'])), back⟩) := by
  have hbrace : isEnvironmentCharacter '\x7d' = false := by decide
  obtain ⟨hrun, hpast⟩ := pastRun_of_neg hname hbrace (offset + '\x7b'.utf8Size) back
  simp only [environmentName, past, hrun, hpast, width_cons, width_append, width_nil,
    Nat.add_assoc, Nat.add_zero]

theorem environmentName_wrong {name : List Char} {c : Char}
    (hname : ∀ x ∈ name, isEnvironmentCharacter x = true) (hc : isEnvironmentCharacter c = false)
    (hbrace : c ≠ '\x7d') (command : String) (offset : Nat) (back : List Char) :
    (⟨offset, '\x7b' :: (name ++ c :: back)⟩ : Cursor).environmentName command =
      (.error ⟨.unexpectedCharacter c, ⟨offset + width ('\x7b' :: name),
        offset + width ('\x7b' :: (name ++ [c]))⟩⟩,
        (⟨offset + width ('\x7b' :: (name ++ [c])), back⟩ : Cursor).pastNext '\x7d') := by
  obtain ⟨hrun, hpast⟩ := pastRun_of_neg hname hc (offset + '\x7b'.utf8Size) back
  simp only [environmentName, past, hpast, width_cons, width_append, width_nil, spanTo,
    Nat.add_assoc, Nat.add_zero]

theorem environmentName_local {command : String} {result : Except ParseError (List Char)}
    (h : cursor.environmentName command = (result, after)) (hne : after.rest ≠ []) :
    ∃ text, text ≠ [] ∧ cursor.rest = text ++ after.rest ∧ ∀ other,
      (⟨cursor.offset, text ++ other⟩ : Cursor).environmentName command =
        (result, ⟨cursor.offset + width text, other⟩) := by
  obtain ⟨offset, rest⟩ := cursor
  cases rest with
  | nil =>
      cases h
      exact absurd rfl hne
  | cons c rest =>
      by_cases hopen : c = '\x7b'
      · subst hopen
        rcases exists_run isEnvironmentCharacter rest with hall | ⟨name, c, back, rfl, hname, hc⟩
        · have hdrop := List.dropWhile_eq_nil_iff.mpr hall
          simp only [environmentName, past, pastRun, hdrop] at h
          cases h
          exact absurd rfl hne
        by_cases hclose : c = '\x7d'
        · subst hclose
          rw [environmentName_closed hname] at h
          cases h
          refine ⟨'\x7b' :: (name ++ ['\x7d']), by simp, by simp, fun other => ?_⟩
          have hother := environmentName_closed hname command offset other
          simpa using hother
        · rw [environmentName_wrong hname hc hclose] at h
          rcases exists_run (· != '\x7d') back with hall | ⟨body, x, back, rfl, hbody, hx⟩
          · have hdrop := List.dropWhile_eq_nil_iff.mpr hall
            cases h
            exact absurd (by simp [pastNext, hdrop]) hne
          · obtain rfl : x = '\x7d' := by simpa using hx
            rw [pastNext_of_mem hbody] at h
            cases h
            refine ⟨'\x7b' :: (name ++ c :: (body ++ ['\x7d'])), by simp, by simp,
              fun other => ?_⟩
            have hother :=
              environmentName_wrong hname hc hclose command offset (body ++ '\x7d' :: other)
            rw [pastNext_of_mem hbody] at hother
            simpa [Nat.add_assoc] using hother
      · have hother : ∀ other, (⟨offset, c :: other⟩ : Cursor).environmentName command =
            (.error ⟨.missingArgument command, ⟨offset, offset + c.utf8Size⟩⟩,
              ⟨offset + c.utf8Size, other⟩) := by
          intro other
          unfold environmentName
          split
          · rename_i hnil
            cases hnil
          · rename_i heq
            cases heq
            exact absurd rfl hopen
          · rename_i heq
            cases heq
            rfl
        rw [hother] at h
        cases h
        exact ⟨[c], by simp, by simp, fun other => by simpa using hother other⟩

theorem scanEnvironment_local {lead : List Char} {command : String}
    {token : Environment → Token}
    (h : scanEnvironment first lead command token cursor = (.fault error, after))
    (hne : after.rest ≠ []) :
    ∃ text, text ≠ [] ∧ cursor.rest = text ++ after.rest ∧ ∀ start other,
      scanEnvironment start lead command token ⟨cursor.offset, text ++ other⟩ =
        (.fault error, ⟨cursor.offset + width text, other⟩) := by
  unfold scanEnvironment at h
  cases hname : cursor.environmentName command with
  | mk result behind =>
      rw [hname] at h
      cases result with
      | error found =>
          cases h
          obtain ⟨text, hnil, hrest, hlocal⟩ := environmentName_local hname hne
          refine ⟨text, hnil, hrest, fun start other => ?_⟩
          unfold scanEnvironment
          rw [hlocal]
      | ok name =>
          dsimp only at h
          split at h
          · rename_i hfound
            cases h
            obtain ⟨text, hnil, hrest, hlocal⟩ := environmentName_local hname hne
            have hpasses := environmentName_passes hname
            obtain rfl : text = _ := List.append_cancel_right (hrest.symm.trans hpasses.rest)
            refine ⟨_, hnil, hrest, fun start other => ?_⟩
            unfold scanEnvironment
            rw [hlocal]
            dsimp only
            rw [hfound, hpasses.span_eq]
            rfl
          · cases h

theorem commandName?_eq {word : String} (hword : Piece.isWord word = true) {rest : List Char}
    (hrest : NoLetter rest) (offset : Nat) :
    (⟨offset, word.toList ++ rest⟩ : Cursor).commandName? =
      some (word, ⟨offset + width word.toList, rest⟩) := by
  simp only [Piece.isWord, Bool.and_eq_true, Bool.not_eq_true', List.all_eq_true] at hword
  obtain ⟨⟨stop, _⟩, hcommand, rfl⟩ :=
    commandName?_of_letters hword.2 (by simpa using hword.1) hrest offset
  rw [String.ofList_toList] at hcommand
  rw [hcommand]
  exact congrArg (fun stop => some (word, Cursor.mk stop _)) (commandName?_passes hcommand).1.offset

theorem scanCommand_begin {named : Cursor} (h : cursor.commandName? = some ("begin", named)) :
    scanCommand first cursor =
      scanEnvironment first ('\\' :: "begin".toList ++ named.run isSpacing) "\\begin"
        .environmentBegin (named.pastRun isSpacing) := by
  unfold scanCommand
  rw [h]
  rfl

theorem scanCommand_end {named : Cursor} (h : cursor.commandName? = some ("end", named)) :
    scanCommand first cursor =
      scanEnvironment first ('\\' :: "end".toList ++ named.run isSpacing) "\\end"
        .environmentEnd (named.pastRun isSpacing) := by
  unfold scanCommand
  rw [h]
  rfl

theorem spelling_of_environment {word : String} {rest : List Char} {command : String}
    {token : Environment → Token} {named : Cursor}
    (hword : Piece.isWord word = true)
    (hscan : ∀ {first cursor named : Cursor}, cursor.commandName? = some (word, named) →
      scanCommand first cursor = scanEnvironment first ('\\' :: word.toList ++ named.run isSpacing)
        command token (named.pastRun isSpacing))
    (hrest : cursor.rest = '\\' :: rest)
    (hcommand : (cursor.past '\\' rest).commandName? = some (word, named))
    (h : scanCommand cursor (cursor.past '\\' rest) = (.fault error, after))
    (hne : after.rest ≠ []) :
    ∃ text, cursor.rest = text ++ after.rest ∧ error.Spelling cursor.offset text := by
  obtain ⟨hpasses, -, hletter⟩ := commandName?_passes hcommand
  have hlead : cursor.Passes ('\\' :: word.toList) named := (Passes.past hrest).trans hpasses
  have hspaces : ∀ c ∈ named.run isSpacing, isSpacing c = true := fun _ => isSpacing_of_mem_run
  have hsplit := named.run_append_rest isSpacing
  have hplace : (named.pastRun isSpacing).offset = named.offset + width (named.run isSpacing) := rfl
  rw [hscan hcommand] at h
  obtain ⟨text, hnil, hbehind, hlocal⟩ := scanEnvironment_local h hne
  obtain ⟨c, text, rfl⟩ := List.exists_cons_of_ne_nil hnil
  have hc : isSpacing c = false := by
    have hstop := List.head?_dropWhile_not isSpacing named.rest
    rwa [show named.rest.dropWhile isSpacing = c :: text ++ after.rest from hbehind] at hstop
  rw [hbehind] at hsplit
  generalize named.run isSpacing = spaces at *
  have hfollows : ∀ other, NoLetter (spaces ++ c :: (text ++ other)) := by
    have hnamed := hletter hword
    rw [← hsplit] at hnamed
    cases spaces <;> exact fun _ => hnamed
  refine ⟨'\\' :: (word.toList ++ (spaces ++ c :: text)), ?_, by simp, fun other => ?_⟩
  · rw [hlead.rest, ← hsplit]
    simp
  · have hname := commandName?_eq hword (hfollows other) (cursor.offset + '\\'.utf8Size)
    obtain ⟨hrun, hpast⟩ := pastRun_of_neg hspaces hc
      (cursor.offset + '\\'.utf8Size + width word.toList) (text ++ other)
    have hread :=
      hlocal ⟨cursor.offset, '\\' :: (word.toList ++ (spaces ++ c :: text)) ++ other⟩ other
    have hchars : '\\' :: (word.toList ++ (spaces ++ c :: text)) ++ other =
        '\\' :: (word.toList ++ (spaces ++ c :: (text ++ other))) := by simp
    rw [hchars] at hread ⊢
    rw [scan_backslash, hscan hname, hrun, hpast]
    rw [hplace, hlead.offset, List.cons_append] at hread
    simp only [width_cons, width_append, Nat.add_assoc] at hread ⊢
    exact hread

theorem scanCommand_local {rest : List Char} (hrest : cursor.rest = '\\' :: rest)
    (h : scanCommand cursor (cursor.past '\\' rest) = (.fault error, after))
    (hne : after.rest ≠ []) :
    ∃ text, cursor.rest = text ++ after.rest ∧ error.Spelling cursor.offset text := by
  cases hcommand : (cursor.past '\\' rest).commandName? with
  | none =>
      unfold scanCommand at h
      rw [hcommand] at h
      cases h
      unfold commandName? at hcommand
      split at hcommand
      · rename_i hnil
        exact absurd hnil hne
      · split at hcommand <;> cases hcommand
  | some found =>
      obtain ⟨name, named⟩ := found
      have hscan := h
      unfold scanCommand at h
      rw [hcommand] at h
      dsimp only at h
      split at h
      · exact spelling_of_environment (by decide) scanCommand_begin hrest hcommand hscan hne
      · exact spelling_of_environment (by decide) scanCommand_end hrest hcommand hscan hne
      · cases h

theorem scan_local (h : cursor.scan = (.fault error, after)) (hne : after.rest ≠ []) :
    ∃ text, cursor.rest = text ++ after.rest ∧ error.Spelling cursor.offset text := by
  unfold scan at h
  split at h
  · cases h
  · rename_i c rest hrest
    dsimp only at h
    split at h
    · cases h
    · rename_i hspacing
      split at h
      · cases h
      · rename_i hpercent
        split at h
        · rename_i hbackslash
          subst hbackslash
          exact scanCommand_local hrest h hne
        · rename_i hbackslash
          split at h
          · rename_i hnone
            cases h
            refine ⟨[c], hrest, by simp, fun other => ?_⟩
            simp only [scan, List.cons_append, List.nil_append, hspacing, hpercent, hbackslash,
              hnone, past, spanTo, width_cons, width_nil, Nat.add_zero, if_false,
              Bool.false_eq_true]
          · cases h

end Cursor

end TexMath
