import TexMath.Piece
import TexMath.Proofs.Token.Items

/-!
# The tokens of a written text

`Lexes` says which significant tokens some characters scan to, wherever in a source they stand.  The
pieces of a text scan to the tokens they stand for, one after the other: none is split and no two
are fused.
-/

namespace TexMath

open Text

/-- The characters scan to these tokens, and to nothing else but white space and comments. -/
def Lexes (chars : List Char) (tokens : List Token) : Prop :=
  ∀ offset bound, chars.length ≤ bound → ∃ lexemes : List Lexeme,
    ((⟨offset, chars⟩ : Cursor).items bound).filter Item.isSignificant = lexemes.map .lexeme ∧
      lexemes.map Lexeme.token = tokens

/-- The first item of the characters is a lexeme with the token, and these characters follow it. -/
def ScansTo (chars : List Char) (token : Token) (rest : List Char) : Prop :=
  ∀ offset, ∃ lexeme after,
    (⟨offset, chars⟩ : Cursor).scan = (.lexeme lexeme, after) ∧ lexeme.token = token ∧
      after.rest = rest

/-! ## Single tokens -/

section ScansTo

variable {c : Char} {rest : List Char}

theorem scansTo_blank (h : isSpacing c = true) (rest : List Char) :
    ScansTo (c :: rest) .blank ((c :: rest).dropWhile isSpacing) := by
  intro offset
  simp only [Cursor.scan, h, if_true]
  exact ⟨_, _, rfl, rfl, rfl⟩

def Token.ofChar? (c : Char) : Option Token :=
  if isSpacing c || c == '%' || c == '\\' then none else Cursor.characterToken? c

theorem Token.not_isSpacing_of_ofChar? {token : Token} (h : ofChar? c = some token) :
    isSpacing c = false := by
  unfold ofChar? at h
  split at h
  · cases h
  · simp_all

theorem Token.not_isTrivia_of_ofChar? {token : Token} (h : ofChar? c = some token) :
    token.isTrivia = false := by
  unfold ofChar? at h
  split at h
  · cases h
  · unfold Cursor.characterToken? at h
    split at h <;> first | cases h; rfl | cases h | skip
    split at h <;> cases h
    rfl

theorem scansTo_character {token : Token} (h : Token.ofChar? c = some token) (rest : List Char) :
    ScansTo (c :: rest) token rest := by
  unfold Token.ofChar? at h
  split at h
  · cases h
  · rename_i hplain
    simp only [Bool.or_eq_true, beq_iff_eq, not_or] at hplain
    obtain ⟨⟨hspacing, hpercent⟩, hbackslash⟩ := hplain
    intro offset
    simp only [Cursor.scan, hspacing, hpercent, hbackslash, h, if_false]
    exact ⟨_, _, rfl, rfl, rfl⟩

def NoLetter (chars : List Char) : Prop := ∀ c ∈ chars.head?, c.isAlpha = false

theorem takeWhile_letters {name : List Char} (hname : ∀ c ∈ name, c.isAlpha = true)
    (hrest : NoLetter rest) :
    (name ++ rest).takeWhile Char.isAlpha = name ∧
      (name ++ rest).dropWhile Char.isAlpha = rest := by
  rw [List.takeWhile_append_of_pos hname, List.dropWhile_append_of_pos hname]
  cases rest with
  | nil => simp
  | cons c rest => simp [hrest c rfl]

theorem commandName?_of_letters {name : List Char} (hname : ∀ c ∈ name, c.isAlpha = true)
    (hne : name ≠ []) (hrest : NoLetter rest) (offset : Nat) :
    ∃ after : Cursor, (⟨offset, name ++ rest⟩ : Cursor).commandName? =
      some (String.ofList name, after) ∧ after.rest = rest := by
  obtain ⟨htake, hdrop⟩ := takeWhile_letters hname hrest
  cases name with
  | nil => exact absurd rfl hne
  | cons c name =>
      refine ⟨Cursor.pastRun ⟨offset, c :: name ++ rest⟩ Char.isAlpha, ?_, hdrop⟩
      simp only [Cursor.commandName?, List.cons_append, hname c List.mem_cons_self, if_true]
      rw [Cursor.run]
      simp only
      rw [← List.cons_append, htake]

theorem commandName?_of_not_letter (hc : c.isAlpha = false) (rest : List Char) (offset : Nat) :
    ∃ after : Cursor, (⟨offset, c :: rest⟩ : Cursor).commandName? =
      some (String.singleton c, after) ∧ after.rest = rest := by
  simp only [Cursor.commandName?, hc]
  exact ⟨_, rfl, rfl⟩

theorem scan_backslash (offset : Nat) (chars : List Char) :
    (⟨offset, '\\' :: chars⟩ : Cursor).scan =
      Cursor.scanCommand ⟨offset, '\\' :: chars⟩ ⟨offset + '\\'.utf8Size, chars⟩ := rfl

theorem scansTo_command {chars : List Char} {name : String}
    (hname : ∀ offset, ∃ after : Cursor,
      (⟨offset, chars⟩ : Cursor).commandName? = some (name, after) ∧ after.rest = rest)
    (hbegin : name ≠ "begin") (hend : name ≠ "end") :
    ScansTo ('\\' :: chars) (.command name) (rest.dropWhile isSpacing) := by
  intro offset
  obtain ⟨after, hcommand, rfl⟩ := hname (offset + '\\'.utf8Size)
  rw [scan_backslash]
  unfold Cursor.scanCommand
  rw [hcommand]
  dsimp only
  split
  · exact absurd rfl hbegin
  · exact absurd rfl hend
  · exact ⟨_, _, rfl, rfl, rfl⟩

theorem isEnvironmentCharacter_of_mem_name (environment : Environment) :
    ∀ c ∈ environment.name.toList, Cursor.isEnvironmentCharacter c = true := by
  rw [← List.all_eq_true]
  cases environment <;> decide

theorem environmentName_name (environment : Environment) (rest : List Char) (command : String)
    (offset : Nat) :
    ∃ after : Cursor,
      (⟨offset, '\x7b' :: (environment.name.toList ++ '\x7d' :: rest)⟩ : Cursor).environmentName
        command = (.ok environment.name.toList, after) ∧ after.rest = rest := by
  have hname := isEnvironmentCharacter_of_mem_name environment
  have hbrace : Cursor.isEnvironmentCharacter '\x7d' = false := by decide
  have htake : (environment.name.toList ++ '\x7d' :: rest).takeWhile
      Cursor.isEnvironmentCharacter = environment.name.toList := by
    rw [List.takeWhile_append_of_pos hname]
    simp [hbrace]
  have hdrop : (environment.name.toList ++ '\x7d' :: rest).dropWhile
      Cursor.isEnvironmentCharacter = '\x7d' :: rest := by
    rw [List.dropWhile_append_of_pos hname]
    simp [hbrace]
  simp only [Cursor.environmentName, Cursor.past, Cursor.pastRun, Cursor.run, htake, hdrop]
  exact ⟨_, rfl, rfl⟩

theorem scanEnvironment_name (first : Cursor) (lead : List Char) (command : String)
    (token : Environment → Token) (environment : Environment) (rest : List Char) (offset : Nat) :
    ∃ lexeme after, Cursor.scanEnvironment first lead command token
        ⟨offset, '\x7b' :: (environment.name.toList ++ '\x7d' :: rest)⟩ =
      (.lexeme lexeme, after) ∧ lexeme.token = token environment ∧ after.rest = rest := by
  obtain ⟨after, hname, rfl⟩ := environmentName_name environment rest command offset
  unfold Cursor.scanEnvironment
  rw [hname]
  dsimp only
  rw [String.ofList_toList, Environment.ofName?_name]
  exact ⟨_, _, rfl, rfl, rfl⟩

theorem dropWhile_spacing {spaces : List Char} (hspaces : ∀ c ∈ spaces, isSpacing c = true) :
    (spaces ++ rest).dropWhile isSpacing = rest.dropWhile isSpacing :=
  List.dropWhile_append_of_pos hspaces

theorem noLetter_brace {spaces : List Char} (hspaces : ∀ c ∈ spaces, isSpacing c = true)
    (rest : List Char) : NoLetter (spaces ++ '\x7b' :: rest) := by
  intro c hc
  cases spaces with
  | nil =>
      cases hc
      decide
  | cons space spaces =>
      cases hc
      have hspace := hspaces c List.mem_cons_self
      simp only [isSpacing, Bool.or_eq_true, beq_iff_eq] at hspace
      rcases hspace with (((rfl | rfl) | rfl) | rfl) | rfl <;> decide

theorem scanEnvironment_spacing (first named : Cursor) (lead : List Char) (command : String)
    (token : Environment → Token) (environment : Environment) {spaces : List Char}
    (hspaces : ∀ c ∈ spaces, isSpacing c = true)
    (hnamed : named.rest = spaces ++ '\x7b' :: (environment.name.toList ++ '\x7d' :: rest)) :
    ∃ lexeme after, Cursor.scanEnvironment first lead command token (named.pastRun isSpacing) =
      (.lexeme lexeme, after) ∧ lexeme.token = token environment ∧ after.rest = rest := by
  have hbrace : isSpacing '\x7b' = false := by decide
  unfold Cursor.pastRun
  rw [hnamed, dropWhile_spacing hspaces, List.dropWhile_cons_of_neg (by simp [hbrace])]
  exact scanEnvironment_name _ _ _ _ environment rest _

theorem scansTo_begin (environment : Environment) {spaces : List Char}
    (hspaces : ∀ c ∈ spaces, isSpacing c = true) (rest : List Char) :
    ScansTo ('\\' :: ("begin".toList ++
        (spaces ++ '\x7b' :: (environment.name.toList ++ '\x7d' :: rest))))
      (.environmentBegin environment) rest := by
  intro offset
  obtain ⟨named, hcommand, hnamed⟩ := commandName?_of_letters
    (List.all_eq_true.mp (by decide : "begin".toList.all Char.isAlpha = true)) (by decide)
    (noLetter_brace hspaces (environment.name.toList ++ '\x7d' :: rest)) (offset + '\\'.utf8Size)
  rw [scan_backslash]
  unfold Cursor.scanCommand
  rw [hcommand, String.ofList_toList]
  exact scanEnvironment_spacing _ named _ _ _ environment hspaces hnamed

theorem scansTo_end (environment : Environment) {spaces : List Char}
    (hspaces : ∀ c ∈ spaces, isSpacing c = true) (rest : List Char) :
    ScansTo ('\\' :: ("end".toList ++
        (spaces ++ '\x7b' :: (environment.name.toList ++ '\x7d' :: rest))))
      (.environmentEnd environment) rest := by
  intro offset
  obtain ⟨named, hcommand, hnamed⟩ := commandName?_of_letters
    (List.all_eq_true.mp (by decide : "end".toList.all Char.isAlpha = true)) (by decide)
    (noLetter_brace hspaces (environment.name.toList ++ '\x7d' :: rest)) (offset + '\\'.utf8Size)
  rw [scan_backslash]
  unfold Cursor.scanCommand
  rw [hcommand, String.ofList_toList]
  exact scanEnvironment_spacing _ named _ _ _ environment hspaces hnamed

end ScansTo

/-! ## Significant tokens -/

namespace Lexes

variable {chars rest : List Char} {token : Token} {tokens : List Token}

theorem nil : Lexes [] [] := by
  intro offset bound _
  rw [Cursor.items_of_nil rfl]
  exact ⟨[], rfl, rfl⟩

theorem items_of_scansTo (h : ScansTo chars token rest) (hne : chars ≠ []) (offset : Nat)
    {bound : Nat} (hbound : chars.length ≤ bound) :
    ∃ lexeme after bound', (⟨offset, chars⟩ : Cursor).items bound =
      .lexeme lexeme :: (⟨after, rest⟩ : Cursor).items bound' ∧ lexeme.token = token ∧
        rest.length ≤ bound' := by
  obtain ⟨lexeme, ⟨after, _⟩, hscan, htoken, rfl⟩ := h offset
  have hlt := @Cursor.length_scan_lt ⟨offset, chars⟩ hne
  have hpos := List.length_pos_iff.mpr hne
  obtain ⟨bound', rfl⟩ : ∃ smaller, bound = smaller + 1 := ⟨bound - 1, by omega⟩
  rw [hscan] at hlt
  refine ⟨lexeme, after, bound', ?_, htoken, by dsimp only at hlt ⊢; omega⟩
  rw [Cursor.items_succ hne, hscan]

theorem cons (h : ScansTo chars token rest) (hne : chars ≠ []) (htrivia : token.isTrivia = false)
    (hrest : Lexes rest tokens) : Lexes chars (token :: tokens) := by
  intro offset bound hbound
  obtain ⟨lexeme, after, bound', hitems, rfl, hlength⟩ := items_of_scansTo h hne offset hbound
  obtain ⟨lexemes, hfilter, htokens⟩ := hrest after bound' hlength
  refine ⟨lexeme :: lexemes, ?_, by rw [List.map_cons, htokens]⟩
  rw [hitems, List.filter_cons_of_pos (by simpa [Item.isSignificant] using htrivia), hfilter]
  rfl

theorem blank (h : ScansTo chars token rest) (hne : chars ≠ []) (htrivia : token.isTrivia = true)
    (hrest : Lexes rest tokens) : Lexes chars tokens := by
  intro offset bound hbound
  obtain ⟨lexeme, after, bound', hitems, rfl, hlength⟩ := items_of_scansTo h hne offset hbound
  rw [hitems, List.filter_cons_of_neg (by simpa [Item.isSignificant] using htrivia)]
  exact hrest after bound' hlength

theorem of_dropWhile (h : Lexes (chars.dropWhile isSpacing) tokens) : Lexes chars tokens := by
  cases chars with
  | nil => exact h
  | cons c rest =>
      by_cases hspacing : isSpacing c = true
      · exact blank (scansTo_blank hspacing rest) (by simp) rfl h
      · rwa [List.dropWhile_cons_of_neg hspacing] at h

end Lexes

/-! ## Pieces -/

namespace Piece

def chars (afterWord : Bool) (pieces : List Piece) : List Char :=
  (spellings afterWord pieces).flatMap String.toList

theorem toList_render (pieces : List Piece) : (render pieces).toList = chars false pieces := by
  rw [render, String.toList_join, chars]

@[simp] theorem chars_command (afterWord : Bool) (name : String) (pieces : List Piece) :
    chars afterWord (.command name :: pieces) =
      '\\' :: (name.toList ++ chars (isWord name) pieces) := by
  simp [chars, spellings, spell, leavesWord]

@[simp] theorem chars_empty (afterWord : Bool) (pieces : List Piece) :
    chars afterWord (.text "" :: pieces) = chars afterWord pieces := by
  have hempty : "".isEmpty = true := rfl
  simp [chars, spellings, spell, leavesWord, startsWithLetter, hempty]

theorem chars_text (afterWord : Bool) {text : String} (hne : text ≠ "") (pieces : List Piece) :
    chars afterWord (.text text :: pieces) =
      (if afterWord && startsWithLetter text then ' ' :: text.toList else text.toList) ++
        chars false pieces := by
  have hempty : text.isEmpty = false := by simpa using hne
  simp only [chars, spellings, spell, leavesWord, hempty, Bool.and_false, List.flatMap_cons]
  split <;> simp

theorem chars_singleton (afterWord : Bool) (c : Char) (pieces : List Piece) :
    chars afterWord (.text (String.singleton c) :: pieces) =
      if afterWord && c.isAlpha then ' ' :: c :: chars false pieces
      else c :: chars false pieces := by
  have hletter : startsWithLetter (String.singleton c) = c.isAlpha := by simp [startsWithLetter]
  rw [chars_text afterWord (by simp), hletter]
  split <;> simp

theorem dropWhile_chars_singleton {c : Char} {token : Token} (h : Token.ofChar? c = some token)
    (afterWord : Bool) (pieces : List Piece) :
    (chars afterWord (.text (String.singleton c) :: pieces)).dropWhile isSpacing =
      c :: chars false pieces := by
  have hspace : isSpacing ' ' = true := by decide
  have hspacing := Token.not_isSpacing_of_ofChar? h
  rw [chars_singleton]
  split <;> simp [hspacing, hspace]

theorem chars_environment (afterWord : Bool) (command : String) (environment : Environment)
    (pieces : List Piece) :
    chars afterWord (.command command :: .text "\x7b" :: .text environment.name ::
        .text "\x7d" :: pieces) =
      '\\' :: (command.toList ++ '\x7b' :: (environment.name.toList ++ '\x7d' ::
        chars false pieces)) := by
  have hname : environment.name ≠ "" := by cases environment <;> decide
  have hbrace : startsWithLetter "\x7b" = false := by decide
  simp [chars_text, hname, hbrace]

end Piece

def Piece.isName (name : String) : Bool :=
  name != "begin" && name != "end" && (isWord name || name.toList.length == 1)

theorem scansTo_name {name : String} {rest : List Char} (hname : Piece.isName name = true)
    (hrest : Piece.isWord name = true → NoLetter rest) :
    ScansTo ('\\' :: (name.toList ++ rest)) (.command name) (rest.dropWhile isSpacing) := by
  simp only [Piece.isName, Bool.and_eq_true, bne_iff_ne, Bool.or_eq_true, beq_iff_eq] at hname
  obtain ⟨⟨hbegin, hend⟩, hname⟩ := hname
  refine scansTo_command (fun offset => ?_) hbegin hend
  by_cases hword : Piece.isWord name = true
  · have hfollows := hrest hword
    simp only [Piece.isWord, Bool.and_eq_true, Bool.not_eq_true', List.all_eq_true] at hword
    have hletters := commandName?_of_letters hword.2 (by simpa using hword.1) hfollows offset
    rwa [String.ofList_toList] at hletters
  · obtain ⟨c, hchars⟩ := List.length_eq_one_iff.mp (hname.resolve_left hword)
    obtain rfl : name = String.singleton c := String.toList_inj.mp (by simpa using hchars)
    have hc : c.isAlpha = false := by simpa [Piece.isWord] using hword
    simpa using commandName?_of_not_letter hc rest offset

def Piece.token? : Piece → Option Token
  | .command name => if isName name then some (.command name) else none
  | .text chars =>
      match chars.toList with
      | [c] => Token.ofChar? c
      | _ => none

/-- The pieces are written for the tokens.  A piece without text stands for no token, and the four
pieces at either end of an environment for one. -/
inductive Spells : List Piece → List Token → Prop
  | nil : Spells [] []
  | empty {pieces : List Piece} {tokens : List Token} :
      Spells pieces tokens → Spells (.text "" :: pieces) tokens
  | character {pieces : List Piece} {tokens : List Token} {c : Char} {token : Token} :
      Token.ofChar? c = some token → Spells pieces tokens →
      Spells (.text (String.singleton c) :: pieces) (token :: tokens)
  | command {pieces : List Piece} {tokens : List Token} {name : String} :
      Piece.isName name = true → Spells pieces tokens →
      Spells (.command name :: pieces) (.command name :: tokens)
  | environmentBegin {pieces : List Piece} {tokens : List Token} (environment : Environment) :
      Spells pieces tokens →
      Spells (.command "begin" :: .text "\x7b" :: .text environment.name :: .text "\x7d" :: pieces)
        (.environmentBegin environment :: tokens)
  | environmentEnd {pieces : List Piece} {tokens : List Token} (environment : Environment) :
      Spells pieces tokens →
      Spells (.command "end" :: .text "\x7b" :: .text environment.name :: .text "\x7d" :: pieces)
        (.environmentEnd environment :: tokens)

namespace Spells

variable {pieces others : List Piece} {tokens more : List Token}

theorem append (h : Spells pieces tokens) (hothers : Spells others more) :
    Spells (pieces ++ others) (tokens ++ more) := by
  induction h with
  | nil => exact hothers
  | empty _ ih => exact .empty ih
  | character htoken _ ih => exact .character htoken ih
  | command hname _ ih => exact .command hname ih
  | environmentBegin environment _ ih => exact .environmentBegin environment ih
  | environmentEnd environment _ ih => exact .environmentEnd environment ih

theorem of_token? {piece : Piece} {token : Token} (h : piece.token? = some token) :
    Spells [piece] [token] := by
  cases piece with
  | command name =>
      simp only [Piece.token?, Option.ite_none_right_eq_some, Option.some.injEq] at h
      obtain ⟨hname, rfl⟩ := h
      exact .command hname .nil
  | text chars =>
      simp only [Piece.token?] at h
      cases hchars : chars.toList with
      | nil => simp [hchars] at h
      | cons c others =>
          cases others with
          | nil =>
              obtain rfl : chars = String.singleton c :=
                String.toList_inj.mp (by simpa using hchars)
              rw [hchars] at h
              exact .character h .nil
          | cons => simp [hchars] at h

theorem noLetter (h : Spells pieces tokens) : NoLetter (Piece.chars true pieces) := by
  induction h with
  | nil => nofun
  | empty _ ih => simpa using ih
  | @character pieces _ c _ _ _ _ =>
      rw [Piece.chars_singleton]
      split
      · simp [NoLetter]
      · simp_all [NoLetter]
  | command _ _ _ | environmentBegin _ _ _ | environmentEnd _ _ _ =>
      simp [NoLetter]

theorem lexes_dropWhile (h : Spells pieces tokens) (afterWord : Bool) :
    Lexes ((Piece.chars afterWord pieces).dropWhile isSpacing) tokens := by
  induction h generalizing afterWord with
  | nil => exact .nil
  | empty _ ih => simpa using ih afterWord
  | @character pieces _ c _ htoken _ ih =>
      rw [Piece.dropWhile_chars_singleton htoken]
      exact .cons (scansTo_character htoken _) (by simp) (Token.not_isTrivia_of_ofChar? htoken)
        (.of_dropWhile (ih false))
  | @command pieces _ name hname hrest ih =>
      rw [Piece.chars_command, List.dropWhile_cons_of_neg (by decide)]
      refine .cons (scansTo_name hname fun hword => ?_) (by simp) rfl (ih (Piece.isWord name))
      rw [hword]
      exact hrest.noLetter
  | @environmentBegin pieces _ environment _ ih =>
      rw [Piece.chars_environment, List.dropWhile_cons_of_neg (by decide)]
      have scans := scansTo_begin environment (List.forall_mem_nil _) (Piece.chars false pieces)
      exact .cons scans (by simp) rfl (.of_dropWhile (ih false))
  | @environmentEnd pieces _ environment _ ih =>
      rw [Piece.chars_environment, List.dropWhile_cons_of_neg (by decide)]
      have scans := scansTo_end environment (List.forall_mem_nil _) (Piece.chars false pieces)
      exact .cons scans (by simp) rfl (.of_dropWhile (ih false))

theorem lexes (h : Spells pieces tokens) : Lexes (Piece.render pieces).toList tokens := by
  rw [Piece.toList_render]
  exact .of_dropWhile (h.lexes_dropWhile false)

end Spells

theorem significantItems_of_lexes {source : String} {tokens : List Token}
    (h : Lexes source.toList tokens) : ∃ lexemes : List Lexeme,
      significantItems source = lexemes.map .lexeme ∧ lexemes.map Lexeme.token = tokens :=
  h 0 source.toList.length (Nat.le_refl _)

end TexMath
