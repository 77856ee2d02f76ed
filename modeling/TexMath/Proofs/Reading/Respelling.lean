import TexMath.Proofs.Reading.Names
import TexMath.Proofs.Token.Lookahead
import TexMath.Proofs.Token.Scans

/-!
# Canonical names in a source

Any of the commands in a source can be written with their canonical names instead.  A space goes
behind a name where a letter would go on it otherwise.  The tokens of the source stay what they
are, but for the names of these commands.
-/

namespace TexMath

open Text

/-! ## Writing a source again -/

namespace Cursor

def taken (cursor : Cursor) : List Char :=
  cursor.rest.take (cursor.rest.length - cursor.scan.2.rest.length)

/-- What is written for the next item.  The commands that start at a chosen offset get their
canonical names. -/
def respellItem (chosen : Nat → Bool) (cursor : Cursor) (behind : String) : String :=
  match cursor.scan.1 with
  | .lexeme ⟨.command name, _, text⟩ =>
      if chosen cursor.offset then
        Piece.render [.command (Command.canonicalName name),
          .text (String.ofList (cursor.taken.drop text.toList.length) ++ behind)]
      else String.ofList cursor.taken ++ behind
  | _ => String.ofList cursor.taken ++ behind

def respell (chosen : Nat → Bool) (cursor : Cursor) : Nat → String
  | 0 => ""
  | bound + 1 =>
      match cursor.rest with
      | [] => ""
      | _ :: _ => cursor.respellItem chosen (cursor.scan.2.respell chosen bound)

theorem Passes.taken_eq {cursor : Cursor} {text : List Char}
    (h : cursor.Passes text cursor.scan.2) : cursor.taken = text := by
  simp [taken, h.rest]

end Cursor

def respell (chosen : Nat → Bool) (source : String) : String :=
  (Cursor.start source).respell chosen source.toList.length

def Item.respelled? (chosen : Nat → Bool) : Item → Option Token
  | lexeme l => some (if chosen l.span.start then l.token.canonical else l.token)
  | fault _ => none

/-! ## Tokens -/

/-- The second text has these tokens, and where it goes on a name the first does too. -/
structure Respelled (chars chars' : List Char) (tokens : List Token) : Prop where
  lexes : Lexes (chars'.dropWhile isSpacing) tokens
  noLetter : NoLetter chars → NoLetter chars'
  nil : chars = [] → chars' = []

theorem NoLetter.in_front {text rest rest' : List Char} (hrest : NoLetter rest → NoLetter rest')
    (h : NoLetter (text ++ rest)) : NoLetter (text ++ rest') := by
  cases text with
  | nil => exact hrest h
  | cons c text => exact h

theorem Piece.render_command (name text : String) : ∃ spaces : List Char,
    (∀ c ∈ spaces, isSpacing c = true) ∧
      (render [.command name, .text text]).toList =
        '\\' :: (name.toList ++ (spaces ++ text.toList)) ∧
      (isWord name = true → NoLetter (spaces ++ text.toList)) := by
  have hspells : (render [.command name, .text text]).toList =
      '\\' :: (name.toList ++ (spell (isWord name) (.text text)).toList) := by
    simp [toList_render, chars, spellings, leavesWord, spell]
  by_cases hspace : (isWord name && startsWithLetter text) = true
  · have hblank : isSpacing ' ' = true := by decide
    exact ⟨[' '], by simp [hblank], by simp [hspells, spell, hspace],
      fun _ => noLetter_cons (by decide) _⟩
  · refine ⟨[], by simp, by simp [hspells, spell, hspace], fun hword c hc => ?_⟩
    have hletter : text.toList.head? = some c := hc
    simpa [hword, startsWithLetter, hletter] using hspace

theorem Token.Spelling.of_command {name : String} {text rest : List Char}
    (h : Spelling (.command name) text rest) :
    Piece.isName name = true ∧ text = '\\' :: name.toList := by
  cases h with
  | command hname _ => exact ⟨hname, rfl⟩
  | character htoken =>
      unfold ofChar? Cursor.characterToken? at htoken
      grind

namespace Respelled

variable {token : Token} {name : String} {spaces text rest rest' : List Char} {tokens : List Token}

theorem refl_nil : Respelled [] [] [] := ⟨.nil, id, id⟩

theorem spacing (h : Respelled rest rest' tokens) (hspaces : ∀ c ∈ spaces, isSpacing c = true) :
    Respelled (spaces ++ rest) (spaces ++ rest') tokens where
  lexes := by
    rw [dropWhile_spacing hspaces]
    exact h.lexes
  noLetter := .in_front h.noLetter
  nil hnil := by
    simp only [List.append_eq_nil_iff] at hnil ⊢
    exact ⟨hnil.1, h.nil hnil.2⟩

theorem lexeme (h : Respelled rest rest' tokens) (hspelling : token.Spelling text rest) :
    Respelled (text ++ rest) (text ++ rest')
      (if token.isTrivia then tokens else token :: tokens) where
  lexes := by
    -- The end of the source may have ended a comment, and then it still does.
    have hspelling' : token.Spelling text rest' := by
      by_cases hrest : rest = []
      · rwa [h.nil hrest, ← hrest]
      · exact hspelling.in_front_of h.noLetter fun _ => hrest
    split
    · rename_i htrivia
      exact hspelling'.lexes_trivia htrivia h.lexes
    · rename_i htrivia
      exact hspelling'.lexes_cons (by simpa using htrivia) h.lexes
  noLetter := .in_front h.noLetter
  nil hnil := absurd (List.append_eq_nil_iff.mp hnil).1 hspelling.ne_nil

theorem command {behind : String} (h : Respelled rest behind.toList tokens)
    (hspelling : Token.Spelling (.command name) text rest) :
    Respelled (text ++ rest)
      (Piece.render [.command (Command.canonicalName name), .text behind]).toList
      (.command (Command.canonicalName name) :: tokens) := by
  obtain ⟨hname, rfl⟩ := hspelling.of_command
  obtain ⟨spaces, hspaces, hrender, hletter⟩ :=
    Piece.render_command (Command.canonicalName name) behind
  rw [hrender]
  constructor
  · have hcanonical : Piece.isName (Command.canonicalName name) = true := by
      rwa [Command.apply_canonicalName (f := Piece.isName) (by decide +kernel)]
    have hlexes := h.lexes
    rw [← dropWhile_spacing hspaces] at hlexes
    exact (Token.Spelling.command hcanonical hletter).lexes_cons rfl hlexes
  · exact fun _ => noLetter_cons (by decide) _
  · simp

end Respelled

namespace Cursor

variable {cursor : Cursor} {chosen : Nat → Bool} {tokens : List Token}

theorem respelled_item {behind : String} {found : Lexeme} (hrest : cursor.rest ≠ [])
    (hscan : cursor.scan.1 = .lexeme found)
    (h : Respelled cursor.scan.2.rest behind.toList tokens) :
    Respelled cursor.rest (cursor.respellItem chosen behind).toList
      (if found.token.isTrivia then tokens
        else (if chosen found.span.start then found.token.canonical else found.token) ::
          tokens) := by
  have hscanned := scan_scanned hrest
  rw [hscan] at hscanned
  obtain @⟨_, middle, _, spaces, hpasses, hspelling, hspan, hspaces, hspacing⟩ := hscanned
  have hstart : found.span.start = cursor.offset := by rw [hspan, spanTo]
  have htaken := (hpasses.trans hspaces).taken_eq
  have hbehind := h.spacing hspacing
  rw [← hspaces.rest] at hbehind
  have hkept := hbehind.lexeme hspelling
  rw [← hpasses.rest, ← List.append_assoc, ← htaken] at hkept
  unfold respellItem
  rw [hstart]
  split
  · rename_i name _ text hcommand
    obtain rfl : found = _ := Item.lexeme.inj (hscan.symm.trans hcommand)
    by_cases hchosen : chosen cursor.offset = true
    · have hnamed : Respelled middle.rest (String.ofList spaces ++ behind).toList tokens := by
        simpa using hbehind
      simpa [hchosen, htaken, hpasses.rest, Token.isTrivia, Token.canonical] using
        hnamed.command hspelling
    · simpa [hchosen] using hkept
  · rename_i hother
    have hsame : found.token.canonical = found.token := by
      obtain ⟨token, span, text⟩ := found
      cases token with
      | command name => exact absurd hscan (hother name span text)
      | _ => rfl
    simpa [hsame] using hkept

theorem respelled_respell {bound : Nat} (hbound : cursor.rest.length ≤ bound)
    (hclear : ∀ error, .fault error ∉ cursor.items bound) :
    Respelled cursor.rest (cursor.respell chosen bound).toList
      (((cursor.items bound).filter Item.isSignificant).filterMap (Item.respelled? chosen)) := by
  induction bound generalizing cursor with
  | zero =>
      rw [List.length_eq_zero_iff.mp (Nat.le_zero.mp hbound)]
      exact .refl_nil
  | succ bound ih =>
      by_cases hrest : cursor.rest = []
      · simp [respell, hrest, Respelled.refl_nil]
      rw [items_succ hrest] at hclear ⊢
      have hlt := length_scan_lt hrest
      have hbehind := @ih cursor.scan.2 (by omega) fun error hmem =>
        hclear error (List.mem_cons_of_mem _ hmem)
      cases hscan : cursor.scan.1 with
      | fault error => exact absurd (hscan ▸ List.mem_cons_self) (hclear error)
      | lexeme found =>
          have hitem := @respelled_item _ chosen _ _ found hrest hscan hbehind
          unfold respell
          split
          · contradiction
          · cases htrivia : found.token.isTrivia <;>
              simpa [List.filter_cons, Item.isSignificant, Item.respelled?, htrivia] using hitem

end Cursor

theorem scans_respelled {source : String} (chosen : Nat → Bool)
    (hclear : ∀ error, .fault error ∉ items source) :
    Scans (respell chosen source)
      ((significantItems source).filterMap (Item.respelled? chosen)) := by
  have hrespelled : Respelled source.toList (respell chosen source).toList _ :=
    Cursor.respelled_respell (Nat.le_refl _) hclear
  exact significantItems_of_lexes (.of_dropWhile hrespelled.lexes)

theorem map_canonical_respelled (chosen : Nat → Bool) (lexemes : List Lexeme) :
    ((lexemes.map Item.lexeme).filterMap (Item.respelled? chosen)).map Token.canonical =
      (lexemes.map Lexeme.token).map Token.canonical := by
  induction lexemes with
  | nil => rfl
  | cons lexeme lexemes ih =>
      have hfirst : (if chosen lexeme.span.start then lexeme.token.canonical
          else lexeme.token).canonical = lexeme.token.canonical := by
        split <;> simp
      simp only [List.map_cons, List.filterMap_cons, Item.respelled?, hfirst, ih]

end TexMath
