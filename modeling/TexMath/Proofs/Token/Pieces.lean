import TexMath.Proofs.Symbol.Writing

/-!
# Pieces are neither fused nor split

A written text scans to the tokens of its pieces and to nothing else, not even white space: the
space that keeps a letter off a word command belongs to the command.
-/

namespace TexMath

open Text

namespace Piece

def marks : List (Char × Token) :=
  [('\x7b', .braceOpen), ('\x7d', .braceClose), ('[', .bracketOpen), (']', .bracketClose),
    ('^', .superscriptMark), ('_', .subscriptMark), ('&', .columnMark)]

/-- The piece is a single token: a command named by letters or by one other character, the
character of a symbol, or a mark. -/
inductive Means : Piece → Token → Prop
  | word {name : String} : isWord name = true → name ≠ "begin" → name ≠ "end" →
      Means (.command name) (.command name)
  | sign {c : Char} : c.isAlpha = false →
      Means (.command (String.singleton c)) (.command (String.singleton c))
  | literal {c : Char} {kind : AtomKind} : Literal.kind? c = some kind → c ≠ '[' → c ≠ ']' →
      Means (.text (String.singleton c)) (.character c)
  | mark {c : Char} {token : Token} : (c, token) ∈ marks →
      Means (.text (String.singleton c)) token

theorem ofChar?_of_mem_marks : ∀ entry ∈ marks, Token.ofChar? entry.1 = some entry.2 := by
  decide

theorem isName_singleton (c : Char) : isName (String.singleton c) = true := by
  have hnot : ∀ name : String, name.toList.length ≠ 1 → String.singleton c ≠ name := by
    rintro _ hlength rfl
    simp at hlength
  have hbegin := hnot "begin" (by decide)
  have hend := hnot "end" (by decide)
  simp [isName, hbegin, hend]

namespace Means

variable {piece : Piece} {token : Token} {pieces : List Piece} {tokens : List Token}

theorem command_or_character (h : Means piece token) :
    (∃ name, piece = .command name ∧ isName name = true ∧ token = .command name) ∨
      ∃ c, piece = .text (String.singleton c) ∧ Token.ofChar? c = some token := by
  cases h with
  | word hword hbegin hend => exact .inl ⟨_, rfl, by simp [isName, hword, hbegin, hend], rfl⟩
  | sign => exact .inl ⟨_, rfl, isName_singleton _, rfl⟩
  | literal hkind hopen hclose =>
      refine .inr ⟨_, rfl, ?_⟩
      rw [Literal.ofChar?_of_kind? hkind, if_neg hopen, if_neg hclose]
  | mark hmark => exact .inr ⟨_, rfl, ofChar?_of_mem_marks _ hmark⟩

theorem spells (h : List.Forall₂ Means pieces tokens) : Spells pieces tokens := by
  induction h with
  | nil => exact .nil
  | cons hpiece _ ih =>
      rcases hpiece.command_or_character with ⟨name, rfl, hname, rfl⟩ | ⟨c, rfl, htoken⟩
      · exact .command hname ih
      · exact .character htoken ih

theorem dropWhile_chars (h : List.Forall₂ Means pieces tokens) :
    (chars false pieces).dropWhile isSpacing = chars false pieces := by
  cases h with
  | nil => rfl
  | cons hpiece _ =>
      rcases hpiece.command_or_character with ⟨name, rfl, -, -⟩ | ⟨c, rfl, htoken⟩
      · rw [chars_command, List.dropWhile_cons_of_neg (by decide)]
      · have hspacing := Token.not_isSpacing_of_ofChar? htoken
        simp [chars_singleton, hspacing]

end Means

end Piece

/-! ## The items of a written text -/

/-- The characters scan to lexemes with these tokens, and to no other item. -/
def ItemsOf (chars : List Char) (tokens : List Token) : Prop :=
  ∀ offset bound, chars.length ≤ bound → ∃ lexemes : List Lexeme,
    (⟨offset, chars⟩ : Cursor).items bound = lexemes.map .lexeme ∧
      lexemes.map Lexeme.token = tokens

namespace ItemsOf

open Piece

variable {chars rest : List Char} {token : Token} {tokens : List Token} {pieces : List Piece}

theorem nil : ItemsOf [] [] := fun _ bound _ => ⟨[], Cursor.items_of_nil rfl bound, rfl⟩

theorem cons (h : ScansTo chars token rest) (hne : chars ≠ []) (hrest : ItemsOf rest tokens) :
    ItemsOf chars (token :: tokens) := by
  intro offset bound hbound
  obtain ⟨lexeme, after, bound', hitems, rfl, hlength⟩ :=
    Lexes.items_of_scansTo h hne offset hbound
  obtain ⟨lexemes, hbehind, rfl⟩ := hrest after bound' hlength
  exact ⟨lexeme :: lexemes, by rw [hitems, hbehind, List.map_cons], rfl⟩

theorem of_means (h : List.Forall₂ Means pieces tokens) (afterWord : Bool) :
    ItemsOf ((Piece.chars afterWord pieces).dropWhile isSpacing) tokens := by
  induction h generalizing afterWord with
  | nil => exact .nil
  | @cons piece token pieces tokens hpiece hpieces ih =>
      rcases hpiece.command_or_character with ⟨name, rfl, hname, rfl⟩ | ⟨c, rfl, htoken⟩
      · rw [chars_command, List.dropWhile_cons_of_neg (by decide)]
        refine .cons (scansTo_name hname fun hword => ?_) (by simp) (ih (isWord name))
        rw [hword]
        exact (Means.spells hpieces).noLetter
      · -- The space in front of a letter is taken by the word that is written before it.
        have hrest := ih false
        rw [Means.dropWhile_chars hpieces] at hrest
        rw [dropWhile_chars_singleton htoken]
        exact .cons (scansTo_character htoken _) (by simp) hrest

end ItemsOf

theorem items_render (pieces : List Piece) (tokens : List Token)
    (h : List.Forall₂ Piece.Means pieces tokens) :
    ∃ lexemes : List Lexeme, items (Piece.render pieces) = lexemes.map .lexeme ∧
      lexemes.map Lexeme.token = tokens := by
  have hitems := ItemsOf.of_means h false
  rw [Piece.Means.dropWhile_chars h, ← Piece.toList_render] at hitems
  exact hitems 0 _ (Nat.le_refl _)

theorem items_render_around_words :
    let pieces : List Piece := [.command "alpha", .text "x", .command " ", .text "y",
      .command "pi", .text "é", .text "^", .text "\x7b", .command "\\", .text "\x7d"]
    Piece.render pieces = "\\alpha x\\ y\\pié^\x7b\\\\\x7d" ∧
      ∃ lexemes : List Lexeme, items (Piece.render pieces) = lexemes.map .lexeme ∧
        lexemes.map Lexeme.token = [.command "alpha", .character 'x', .command " ", .character 'y',
          .command "pi", .character 'é', .superscriptMark, .braceOpen, .command "\\",
          .braceClose] := by
  intro pieces
  refine ⟨by decide, items_render pieces _ ?_⟩
  have hx : Literal.kind? 'x' = some .ordinary := by decide
  have hy : Literal.kind? 'y' = some .ordinary := by decide
  have hacute : Literal.kind? 'é' = some .ordinary := by decide
  exact .cons (.word (by decide) (by decide) (by decide)) <|
    .cons (.literal hx (by decide) (by decide)) <| .cons (.sign (c := ' ') (by decide)) <|
    .cons (.literal hy (by decide) (by decide)) <|
    .cons (.word (by decide) (by decide) (by decide)) <|
    .cons (.literal hacute (by decide) (by decide)) <| .cons (.mark (c := '^') (by decide)) <|
    .cons (.mark (c := '\x7b') (by decide)) <| .cons (.sign (c := '\\') (by decide)) <|
    .cons (.mark (c := '\x7d') (by decide)) .nil

end TexMath
