import TexMath.Proofs.Token.Joins
import TexMath.Proofs.Token.Places
import TexMath.Symbol.Delimiter

/-!
# Sources put together from parts

`Scans` gives the significant tokens of a source without faults.  A source that is put together from
tokens, gaps and the lines of other sources scans to the tokens of its parts, one after the other.
`Delimiter.Written` does the same for the text of one delimiter.
-/

namespace TexMath

open Text

/-- The source has no faults, and these are its significant tokens. -/
def Scans (source : String) (tokens : List Token) : Prop :=
  ∃ lexemes : List Lexeme, significantItems source = lexemes.map .lexeme ∧
    lexemes.map Lexeme.token = tokens

def Text.braced (source : String) : String := "\x7b" ++ source ++ "\n" ++ "\x7d"

theorem significantItems_cons {token : Token} {text back : String}
    (hspelling : Token.Spelling token text.toList back.toList)
    (htrivia : token.isTrivia = false) :
    significantItems (text ++ back) = .lexeme ⟨token, ⟨0, text.utf8ByteSize⟩, text⟩ ::
      (significantItems back).map (Item.shift text.utf8ByteSize) := by
  let lexeme : Lexeme := ⟨token, ⟨0, text.utf8ByteSize⟩, text⟩
  have hstop : lexeme.span.stop = lexeme.span.start + width text.toList := by
    rw [width_toList]
    exact (Nat.zero_add _).symm
  have hleads : Leads 0 (text.toList ++ []) [.lexeme lexeme] back.toList :=
    @Leads.lexeme lexeme [] _ _ hspelling hstop .nil
  rw [List.append_nil] at hleads
  rw [significantItems_of_leads hleads, List.filter_cons_of_pos (by simp [Item.isSignificant,
    lexeme, htrivia])]
  rfl

theorem significantItems_single {token : Token} {text : String}
    (hspelling : Token.Spelling token text.toList []) (htrivia : token.isTrivia = false) :
    significantItems text = [.lexeme ⟨token, ⟨0, text.utf8ByteSize⟩, text⟩] := by
  have hitems := @significantItems_cons token text "" hspelling htrivia
  rwa [String.append_empty] at hitems

theorem noLetter_cons {c : Char} (h : c.isAlpha = false) (rest : List Char) :
    NoLetter (c :: rest) := by
  simp [NoLetter, h]

namespace Scans

variable {front back gap text source : String} {token : Token} {tokens others : List Token}

theorem tokens_eq (h : Scans source tokens) : TexMath.tokens source = tokens := by
  obtain ⟨lexemes, hitems, rfl⟩ := h
  exact tokens_of_significantItems hitems

theorem empty : Scans "" [] := ⟨[], rfl, rfl⟩

theorem in_front_of (hback : Scans back tokens) (lexemes : List Lexeme) {count : Nat}
    (hitems : significantItems source =
      lexemes.map .lexeme ++ (significantItems back).map (Item.shift count)) :
    Scans source (lexemes.map Lexeme.token ++ tokens) := by
  obtain ⟨moved, hmoved, rfl⟩ := hback
  refine ⟨lexemes ++ moved.map (Lexeme.shift count), ?_, ?_⟩
  · rw [hitems, hmoved, List.map_append, List.map_map, List.map_map]
    rfl
  · rw [List.map_append, List.map_map]
    rfl

theorem cons (hspelling : Token.Spelling token text.toList back.toList)
    (htrivia : token.isTrivia = false) (hback : Scans back tokens) :
    Scans (text ++ back) (token :: tokens) :=
  hback.in_front_of [_] (significantItems_cons hspelling htrivia)

theorem character (hback : Scans back tokens) {c : Char} (htoken : Token.ofChar? c = some token) :
    Scans (String.singleton c ++ back) (token :: tokens) :=
  hback.cons (by simpa using .character htoken) (Token.not_isTrivia_of_ofChar? htoken)

theorem command (hback : Scans back tokens) (name : String) (hname : Piece.isName name = true)
    (hletter : Piece.isWord name = true → NoLetter back.toList) :
    Scans ("\\" ++ name ++ back) (.command name :: tokens) :=
  hback.cons (by simpa using .command hname hletter) rfl

theorem gap_append (hgap : IsGap gap) (hback : Scans back tokens) : Scans (gap ++ back) tokens :=
  hback.in_front_of [] (hgap.significantItems_append back)

theorem line (hfront : Scans front tokens) (hback : Scans back others) :
    Scans (front ++ "\n" ++ back) (tokens ++ others) := by
  obtain ⟨lexemes, hitems, rfl⟩ := hfront
  have hclear := significantItems_eq_lexemes_iff.mp ⟨lexemes, hitems⟩
  have hwhole := @significantItems_line front back hclear
  rw [hitems] at hwhole
  exact hback.in_front_of lexemes hwhole

theorem braced (hfront : Scans front tokens) (hback : Scans back others) :
    Scans (braced front ++ back) (.braceOpen :: (tokens ++ .braceClose :: others)) := by
  have hclose : Scans ("\x7d" ++ back) _ := hback.character (c := '\x7d') rfl
  have hopen : Scans ("\x7b" ++ _) _ := (hfront.line hclose).character (c := '\x7b') rfl
  simpa only [Text.braced, String.append_assoc] using hopen

theorem braced_alone (h : Scans source tokens) :
    Scans (Text.braced source) (.braceOpen :: (tokens ++ [.braceClose])) := by
  have hbraced := h.braced .empty
  rwa [String.append_empty] at hbraced

end Scans

/-! ## The two ends of an environment -/

namespace Environment

def opening (environment : Environment) : String := "\\begin\x7b" ++ environment.name ++ "\x7d"

def ending (environment : Environment) : String := "\\end\x7b" ++ environment.name ++ "\x7d"

variable (environment : Environment) (rest : List Char)

theorem spelling_opening :
    Token.Spelling (.environmentBegin environment) environment.opening.toList rest := by
  have hspelling := @Token.Spelling.environmentBegin environment [] rest (by simp)
  simpa [opening] using hspelling

theorem spelling_ending :
    Token.Spelling (.environmentEnd environment) environment.ending.toList rest := by
  have hspelling := @Token.Spelling.environmentEnd environment [] rest (by simp)
  simpa [ending] using hspelling

end Environment

/-! ## Delimiters -/

namespace Delimiter

variable {glyph text behind : String} {token : Token} {tokens : List Token}

theorem not_letter_of_lookup {c : Char} (h : characters.lookup c = some glyph) :
    c.isAlpha = false := by
  have hall : ∀ entry ∈ characters, entry.1.isAlpha = false := by decide
  obtain ⟨before, after, hsplit, -⟩ := List.lookup_eq_some_iff.mp h
  exact hall (c, glyph) (by simp [hsplit])

theorem noLetter_of_glyph? {chars rest : List Char} (hglyph : glyph? token = some glyph)
    (h : Token.Spelling token chars rest) (more : List Char) : NoLetter (chars ++ more) := by
  have hwritten := h.written
  have hchars : ∀ {text : String}, String.ofList chars = text → chars = text.toList := by
    rintro _ rfl
    rw [String.toList_ofList]
  cases token with
  | character c =>
      rw [hchars hwritten, String.toList_singleton]
      exact noLetter_cons (not_letter_of_lookup hglyph) more
  | command name =>
      rw [hchars hwritten, String.toList_append]
      exact noLetter_cons (c := '\\') (by decide) _
  | bracketOpen =>
      rw [hchars hwritten]
      exact noLetter_cons (c := '[') (by decide) more
  | bracketClose =>
      rw [hchars hwritten]
      exact noLetter_cons (c := ']') (by decide) more
  | _ => cases hglyph

theorem not_isTrivia_of_glyph? (h : glyph? token = some glyph) : token.isTrivia = false := by
  cases token <;> first | rfl | cases h

/-- With that other text behind it, the text is a delimiter with the glyph.  White space or a
comment may stand in front of the delimiter and behind it. -/
def Written (glyph text behind : String) : Prop :=
  ∃ before spelled after token, text = before ++ spelled ++ after ∧ IsGap before ∧ IsGap after ∧
    Token.Spelling token spelled.toList (after ++ behind).toList ∧ glyph? token = some glyph

theorem Written.scans (h : Written glyph text behind) (hbehind : Scans behind tokens) :
    NoLetter (text ++ behind).toList ∧
      ∃ token, glyph? token = some glyph ∧ Scans (text ++ behind) (token :: tokens) := by
  obtain ⟨before, spelled, after, token, rfl, hbefore, hafter, hspelling, hglyph⟩ := h
  have hspelled := (hbehind.gap_append hafter).cons hspelling (not_isTrivia_of_glyph? hglyph)
  have hletter := hbefore.noLetter (noLetter_of_glyph? hglyph hspelling (after ++ behind).toList)
  refine ⟨?_, token, hglyph, ?_⟩
  · simpa using hletter
  · simpa [String.append_assoc] using hspelled.gap_append hbefore

end Delimiter

end TexMath
