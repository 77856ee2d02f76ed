import TexMath.Proofs.Token.Lexing
import Mathlib.Data.List.DropRight

/-!
# The text of an item

`Token.Spelling` lists the texts of each token, each with what may stand behind it.  A spelled token
scans to itself, and what a scan takes off a source is the spelling of a token, the white space
behind a command, or text that forms no token.
-/

namespace TexMath

open Text

/-- The texts of a token, each with what may stand behind it. -/
inductive Token.Spelling : Token → List Char → List Char → Prop
  | blank {text rest : List Char} :
      text ≠ [] → (∀ c ∈ text, isSpacing c = true) → Spelling .blank text rest
  | comment {body rest : List Char} :
      '\n' ∉ body → Spelling .comment ('%' :: (body ++ ['\n'])) rest
  | lastComment {body : List Char} : '\n' ∉ body → Spelling .comment ('%' :: body) []
  | character {c : Char} {token : Token} {rest : List Char} :
      ofChar? c = some token → Spelling token [c] rest
  | command {name : String} {rest : List Char} :
      Piece.isName name = true → (Piece.isWord name = true → NoLetter rest) →
      Spelling (.command name) ('\\' :: name.toList) rest
  | environmentBegin {environment : Environment} {spaces rest : List Char} :
      (∀ c ∈ spaces, isSpacing c = true) →
      Spelling (.environmentBegin environment)
        ('\\' :: ("begin".toList ++ (spaces ++ '\x7b' :: (environment.name.toList ++ ['\x7d']))))
        rest
  | environmentEnd {environment : Environment} {spaces rest : List Char} :
      (∀ c ∈ spaces, isSpacing c = true) →
      Spelling (.environmentEnd environment)
        ('\\' :: ("end".toList ++ (spaces ++ '\x7b' :: (environment.name.toList ++ ['\x7d'])))) rest

namespace Token.Spelling

variable {token : Token} {text rest more : List Char}

theorem ne_nil (h : Spelling token text rest) : text ≠ [] := by
  cases h with
  | blank hne _ => exact hne
  | _ => simp

theorem width_pos (h : Spelling token text rest) : 0 < width text :=
  Nat.lt_of_lt_of_le (List.length_pos_iff.mpr h.ne_nil) (length_le_width text)

theorem isSpacing_of_blank (h : Spelling .blank text rest) : ∀ c ∈ text, isSpacing c = true := by
  cases h with
  | blank _ hspaces => exact hspaces
  | character htoken => exact absurd (not_isTrivia_of_ofChar? htoken) (by simp [isTrivia])

theorem of_append (h : Spelling token text (rest ++ more)) : Spelling token text rest := by
  generalize hfollows : rest ++ more = follows at h
  cases h with
  | blank hne hspaces => exact .blank hne hspaces
  | comment hbody => exact .comment hbody
  | lastComment hbody =>
      rw [(List.append_eq_nil_iff.mp hfollows).1]
      exact .lastComment hbody
  | character htoken => exact .character htoken
  | command hname hletter =>
      refine .command hname fun hword => ?_
      subst hfollows
      cases rest with
      | nil => nofun
      | cons c rest => exact hletter hword
  | environmentBegin hspaces => exact .environmentBegin hspaces
  | environmentEnd hspaces => exact .environmentEnd hspaces

theorem dropWhile_eq (h : Spelling token text rest) (hblank : token ≠ .blank) :
    (text ++ rest).dropWhile isSpacing = text ++ rest := by
  cases h with
  | blank => exact absurd rfl hblank
  | character htoken => simp [not_isSpacing_of_ofChar? htoken]
  | comment | lastComment | command | environmentBegin | environmentEnd =>
      exact List.dropWhile_cons_of_neg (by decide)

end Token.Spelling

theorem dropWhile_line {body : List Char} (hbody : '\n' ∉ body) (rest : List Char) :
    (body ++ rest).dropWhile (· != '\n') = rest.dropWhile (· != '\n') :=
  List.dropWhile_append_of_pos fun c hc => by
    simp only [bne_iff_ne]
    rintro rfl
    exact hbody hc

theorem scansTo_comment {body : List Char} (hbody : '\n' ∉ body) (rest : List Char) :
    ScansTo ('%' :: (body ++ '\n' :: rest)) .comment rest := by
  intro offset
  refine ⟨_, _, rfl, rfl, ?_⟩
  simp [Cursor.past, Cursor.pastNext, dropWhile_line hbody]

theorem scansTo_lastComment {body : List Char} (hbody : '\n' ∉ body) :
    ScansTo ('%' :: body) .comment [] := by
  intro offset
  refine ⟨_, _, rfl, rfl, ?_⟩
  have hline := dropWhile_line hbody []
  rw [List.append_nil] at hline
  simp [Cursor.past, Cursor.pastNext, hline]

theorem Token.Spelling.scansTo {token : Token} {text rest : List Char}
    (h : Spelling token text rest) : ∃ after, ScansTo (text ++ rest) token after ∧
      after.dropWhile isSpacing = rest.dropWhile isSpacing := by
  cases h with
  | @blank _ _ hne hspaces =>
      obtain ⟨c, chars, rfl⟩ := List.exists_cons_of_ne_nil hne
      refine ⟨_, scansTo_blank (hspaces c List.mem_cons_self) (chars ++ rest), ?_⟩
      rw [List.dropWhile_idempotent, ← List.cons_append, dropWhile_spacing hspaces]
  | @comment body _ hbody =>
      refine ⟨rest, ?_, rfl⟩
      simpa using scansTo_comment hbody rest
  | @lastComment body hbody => exact ⟨[], by simpa using scansTo_lastComment hbody, rfl⟩
  | character htoken => exact ⟨rest, scansTo_character htoken rest, rfl⟩
  | command hname hletter => exact ⟨_, scansTo_name hname hletter, List.dropWhile_idempotent _ _⟩
  | @environmentBegin environment spaces _ hspaces =>
      exact ⟨rest, by simpa using scansTo_begin environment hspaces rest, rfl⟩
  | @environmentEnd environment spaces _ hspaces =>
      exact ⟨rest, by simpa using scansTo_end environment hspaces rest, rfl⟩

namespace Token.Spelling

variable {token : Token} {text rest : List Char} {tokens : List Token}

theorem lexes_cons (h : Spelling token text rest) (htrivia : token.isTrivia = false)
    (hrest : Lexes (rest.dropWhile isSpacing) tokens) :
    Lexes ((text ++ rest).dropWhile isSpacing) (token :: tokens) := by
  obtain ⟨after, hscans, hafter⟩ := h.scansTo
  rw [h.dropWhile_eq (by rintro rfl; cases htrivia)]
  rw [← hafter] at hrest
  exact .cons hscans (by simp [h.ne_nil]) htrivia (.of_dropWhile hrest)

theorem lexes_trivia (h : Spelling token text rest) (htrivia : token.isTrivia = true)
    (hrest : Lexes (rest.dropWhile isSpacing) tokens) :
    Lexes ((text ++ rest).dropWhile isSpacing) tokens := by
  by_cases hblank : token = .blank
  · subst hblank
    rwa [dropWhile_spacing h.isSpacing_of_blank]
  · obtain ⟨after, hscans, hafter⟩ := h.scansTo
    rw [h.dropWhile_eq hblank]
    rw [← hafter] at hrest
    exact .blank hscans (by simp [h.ne_nil]) htrivia (.of_dropWhile hrest)

end Token.Spelling

/-- The texts at which the fault of text that forms no token points, each with what stands behind
it.  At the end of the source no text is left to point at. -/
inductive Cause.Spelling : Cause → List Char → List Char → Prop
  | unexpectedCharacter {c : Char} {rest : List Char} : Spelling (.unexpectedCharacter c) [c] rest
  | missingName {command : String} {c : Char} {rest : List Char} :
      command = "\\begin" ∨ command = "\\end" → Spelling (.missingArgument command) [c] rest
  | missingNameAtEnd {command : String} :
      command = "\\begin" ∨ command = "\\end" → Spelling (.missingArgument command) [] []
  | unclosedName : Spelling .unbalancedBraces [] []
  | unknownEnvironment {name rest : List Char} :
      Spelling (.unknownEnvironment (String.ofList name)) ('\x7b' :: (name ++ ['\x7d'])) rest

theorem Cause.Spelling.ne_nil_or {cause : Cause} {text rest : List Char}
    (h : Spelling cause text rest) : text ≠ [] ∨ rest = [] := by
  cases h with
  | missingNameAtEnd | unclosedName => exact .inr rfl
  | unexpectedCharacter | missingName | unknownEnvironment => exact .inl (by simp)

/-! ## What a scan passes over -/

namespace Cursor

structure Passes (cursor : Cursor) (text : List Char) (after : Cursor) : Prop where
  rest : cursor.rest = text ++ after.rest
  offset : after.offset = cursor.offset + width text

namespace Passes

variable {cursor middle after : Cursor} {text more : List Char}

theorem refl (cursor : Cursor) : cursor.Passes [] cursor := ⟨rfl, rfl⟩

theorem trans (h : cursor.Passes text middle) (hmore : middle.Passes more after) :
    cursor.Passes (text ++ more) after where
  rest := by rw [h.rest, hmore.rest, List.append_assoc]
  offset := by rw [hmore.offset, h.offset, width_append, Nat.add_assoc]

theorem past {c : Char} {rest : List Char} (h : cursor.rest = c :: rest) :
    cursor.Passes [c] (cursor.past c rest) where
  rest := h
  offset := by simp [Cursor.past]

theorem run (cursor : Cursor) (p : Char → Bool) :
    cursor.Passes (cursor.run p) (cursor.pastRun p) where
  rest := (cursor.run_append_rest p).symm
  offset := rfl

theorem throughNext (cursor : Cursor) (c : Char) :
    cursor.Passes (cursor.throughNext c) (cursor.pastNext c) where
  rest := (cursor.throughNext_append_rest c).symm
  offset := rfl

theorem span_eq (h : cursor.Passes text after) :
    cursor.spanTo after = ⟨cursor.offset, cursor.offset + width text⟩ := by
  rw [spanTo, h.offset]

end Passes

/-- Between the two cursors lies text that forms no token, and the error points at a part of it. -/
inductive Faulted (cursor : Cursor) (error : ParseError) (after : Cursor) : Prop
  | intro {first last : Cursor} {lead text skipped : List Char} :
      cursor.Passes lead first → first.Passes text last → last.Passes skipped after →
      error.span = first.spanTo last → error.cause.Spelling text last.rest →
      Faulted cursor error after

variable {cursor after : Cursor}

theorem Faulted.passes {error : ParseError} (h : cursor.Faulted error after) :
    ∃ text, cursor.Passes text after := by
  obtain ⟨hlead, htext, hskipped, -, -⟩ := h
  exact ⟨_, hlead.trans (htext.trans hskipped)⟩

theorem Faulted.prepend {error : ParseError} {middle : Cursor} {lead : List Char}
    (hlead : cursor.Passes lead middle) (h : middle.Faulted error after) :
    cursor.Faulted error after := by
  obtain ⟨hbefore, htext, hskipped, hspan, hspelling⟩ := h
  exact .intro (hlead.trans hbefore) htext hskipped hspan hspelling

theorem Faulted.start_lt {error : ParseError} (h : cursor.Faulted error after) :
    cursor.offset ≤ error.span.start ∧ (error.span.start < after.offset ∨ after.rest = []) := by
  obtain @⟨first, last, lead, text, skipped, hlead, htext, hskipped, hspan, hspelling⟩ := h
  have hstart : error.span.start = cursor.offset + width lead := by
    rw [hspan, ← hlead.offset, spanTo]
  have hafter : after.offset = error.span.start + width text + width skipped := by
    rw [hskipped.offset, htext.offset, hspan, spanTo]
  refine ⟨by omega, ?_⟩
  rcases hspelling.ne_nil_or with hne | hend
  · have hpos : 0 < width text :=
      Nat.lt_of_lt_of_le (List.length_pos_iff.mpr hne) (length_le_width text)
    exact .inl (by omega)
  · have hnothing := hskipped.rest
    rw [hend] at hnothing
    exact .inr (List.append_eq_nil_iff.mp hnothing.symm).2

theorem isSpacing_of_mem_run {c : Char} (h : c ∈ cursor.run isSpacing) : isSpacing c = true :=
  List.mem_takeWhile_imp h

theorem commandName?_passes {name : String} (h : cursor.commandName? = some (name, after)) :
    cursor.Passes name.toList after ∧ (Piece.isWord name = true ∨ name.toList.length = 1) ∧
      (Piece.isWord name = true → NoLetter after.rest) := by
  unfold commandName? at h
  split at h
  · cases h
  · rename_i c rest hrest
    split at h
    · rename_i hletter
      cases h
      rw [String.toList_ofList]
      have hstop := List.head?_dropWhile_not Char.isAlpha cursor.rest
      refine ⟨.run cursor Char.isAlpha, .inl ?_, fun _ c hc => ?_⟩
      · simp [Piece.isWord, run, hrest, hletter]
      · rw [show (cursor.rest.dropWhile Char.isAlpha).head? = some c from hc] at hstop
        exact hstop
    · rename_i hletter
      cases h
      rw [String.toList_singleton]
      refine ⟨.past hrest, .inr rfl, fun hword => ?_⟩
      simp [Piece.isWord, hletter] at hword

theorem environmentName_passes {command : String} {name : List Char}
    (h : cursor.environmentName command = (.ok name, after)) :
    cursor.Passes ('\x7b' :: (name ++ ['\x7d'])) after := by
  unfold environmentName at h
  split at h
  · cases h
  · rename_i rest hrest
    dsimp only at h
    split at h
    · cases h
    · rename_i hnamed
      cases h
      exact (Passes.past hrest).trans ((Passes.run _ _).trans (Passes.past hnamed))
    · cases h
  · cases h

theorem environmentName_faulted {command : String} {error : ParseError}
    (hcommand : command = "\\begin" ∨ command = "\\end")
    (h : cursor.environmentName command = (.error error, after)) :
    cursor.Faulted error after := by
  unfold environmentName at h
  split at h
  · rename_i hrest
    cases h
    exact .intro (.refl cursor) (.refl cursor) (.refl cursor) rfl
      (hrest ▸ .missingNameAtEnd hcommand)
  · rename_i rest hrest
    dsimp only at h
    split at h
    · rename_i hnamed
      cases h
      have hpasses := (Passes.past hrest).trans (.run _ isEnvironmentCharacter)
      exact .intro hpasses (.refl _) (.refl _) rfl (hnamed ▸ .unclosedName)
    · cases h
    · rename_i hnamed
      cases h
      exact .intro ((Passes.past hrest).trans (.run _ _)) (.past hnamed) (.throughNext _ _) rfl
        .unexpectedCharacter
  · rename_i hrest
    cases h
    exact .intro (.refl cursor) (.past hrest) (.refl _) rfl (.missingName hcommand)

theorem comment_spelling (cursor : Cursor) :
    Token.Spelling .comment ('%' :: cursor.throughNext '\n') (cursor.pastNext '\n').rest := by
  have hbody : '\n' ∉ cursor.run (· != '\n') := by
    intro hmem
    simpa using List.mem_takeWhile_imp hmem
  unfold throughNext pastNext
  cases hline : cursor.rest.dropWhile (· != '\n') with
  | nil =>
      rw [List.take_nil, List.append_nil]
      exact .lastComment hbody
  | cons c rest =>
      have hend := List.head?_dropWhile_not (· != '\n') cursor.rest
      obtain rfl : c = '\n' := by simpa [hline] using hend
      exact .comment hbody

/-- What an item takes off the text in front of it, and the cursor behind it.  White space may lie
between the end of a token and that cursor. -/
inductive Scanned (cursor : Cursor) : Item → Cursor → Prop
  | lexeme {lexeme : Lexeme} {middle after : Cursor} {spaces : List Char} :
      cursor.Passes lexeme.text.toList middle →
      Token.Spelling lexeme.token lexeme.text.toList middle.rest →
      lexeme.span = cursor.spanTo middle →
      middle.Passes spaces after → (∀ c ∈ spaces, isSpacing c = true) →
      Scanned cursor (.lexeme lexeme) after
  | fault {error : ParseError} {text : List Char} {after : Cursor} :
      cursor.Passes text after → text ≠ [] → Scanned cursor (.fault error) after

theorem Scanned.exactly {token : Token} {text : List Char} (hpasses : cursor.Passes text after)
    (hspelling : Token.Spelling token text after.rest) :
    Scanned cursor (.lexeme ⟨token, cursor.spanTo after, String.ofList text⟩) after := by
  refine .lexeme ?_ ?_ rfl (.refl after) (by simp)
  · rwa [String.toList_ofList]
  · rwa [String.toList_ofList]

theorem scanEnvironment_scanned {named : Cursor} {lead spaces : List Char} {command : String}
    {token : Environment → Token} (hlead : cursor.Passes (lead ++ spaces) named)
    (hne : lead ≠ []) (hcommand : command = "\\begin" ∨ command = "\\end")
    (hspelling : ∀ (environment : Environment) (rest : List Char),
      Token.Spelling (token environment)
        (lead ++ (spaces ++ '\x7b' :: (environment.name.toList ++ ['\x7d']))) rest) :
    Scanned cursor (scanEnvironment cursor (lead ++ spaces) command token named).1
      (scanEnvironment cursor (lead ++ spaces) command token named).2 := by
  unfold scanEnvironment
  split
  · rename_i hname
    obtain ⟨text, hpasses⟩ := (environmentName_faulted hcommand hname).passes
    exact .fault (hlead.trans hpasses) (by simp [hne])
  · rename_i name after hname
    have hpasses := hlead.trans (environmentName_passes hname)
    dsimp only
    split
    · exact .fault hpasses (by simp)
    · rename_i environment hfound
      have hchars : environment.name.toList = name := by
        rw [Environment.name_of_ofName? hfound, String.toList_ofList]
      have htoken := hspelling environment after.rest
      rw [hchars, ← List.append_assoc] at htoken
      simpa using Scanned.exactly hpasses htoken

theorem scanCommand_scanned {rest : List Char} (h : cursor.rest = '\\' :: rest) :
    Scanned cursor (scanCommand cursor (cursor.past '\\' rest)).1
      (scanCommand cursor (cursor.past '\\' rest)).2 := by
  have hbackslash : cursor.Passes ['\\'] (cursor.past '\\' rest) := .past h
  unfold scanCommand
  split
  · exact .fault hbackslash (by simp)
  · rename_i name named hcommand
    obtain ⟨hpasses, hname, hletter⟩ := commandName?_passes hcommand
    have hlead := hbackslash.trans hpasses
    have hspaces := Passes.run named isSpacing
    dsimp only
    split
    · exact scanEnvironment_scanned (hlead.trans hspaces) (by simp) (.inl rfl)
        fun environment rest => .environmentBegin fun _ => isSpacing_of_mem_run
    · exact scanEnvironment_scanned (hlead.trans hspaces) (by simp) (.inr rfl)
        fun environment rest => .environmentEnd fun _ => isSpacing_of_mem_run
    · rename_i hbegin hend
      have hisName : Piece.isName name = true := by
        simp only [Piece.isName, Bool.and_eq_true, bne_iff_ne, Bool.or_eq_true, beq_iff_eq]
        exact ⟨⟨hbegin, hend⟩, hname⟩
      refine .lexeme ?_ ?_ rfl hspaces fun _ => isSpacing_of_mem_run
      · rwa [String.toList_ofList]
      · rw [String.toList_ofList]
        exact .command hisName hletter

theorem scan_scanned (h : cursor.rest ≠ []) : Scanned cursor cursor.scan.1 cursor.scan.2 := by
  unfold scan
  split
  · rename_i hrest
    exact absurd hrest h
  · rename_i c rest hrest
    have hpast : cursor.Passes [c] (cursor.past c rest) := .past hrest
    dsimp only
    split
    · rename_i hspacing
      exact .exactly (.run cursor isSpacing)
        (.blank (by simp [run, hrest, hspacing]) fun _ => isSpacing_of_mem_run)
    · rename_i hspacing
      split
      · rename_i hpercent
        subst hpercent
        exact .exactly (hpast.trans (.throughNext _ _)) (comment_spelling _)
      · rename_i hpercent
        split
        · rename_i hbackslash
          subst hbackslash
          exact scanCommand_scanned hrest
        · rename_i hbackslash
          split
          · exact .fault hpast (by simp)
          · rename_i token htoken
            refine .exactly hpast (.character ?_)
            simp [Token.ofChar?, hspacing, hpercent, hbackslash, htoken]

end Cursor

end TexMath
