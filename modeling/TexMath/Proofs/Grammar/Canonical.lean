import TexMath.Proofs.Grammar.Relocation
import TexMath.Proofs.Symbol.Writing

/-!
# The canonical text is derived

The pieces written for a well-formed formula scan to tokens that derive the formula again.  The
derivation is given for lexemes without a place, so that the formula has no spans.
-/

namespace TexMath

open Grammar

def Lexeme.bare (token : Token) : Lexeme := ⟨token, {}, ""⟩

abbrev Lexeme.bares (tokens : List Token) : List Lexeme := tokens.map bare

open Lexeme

@[simp] theorem Lexeme.span_bare (token : Token) : (bare token).span = {} := rfl

@[simp] theorem Lexeme.map_token_bares (tokens : List Token) :
    (bares tokens).map token = tokens := by
  simp [bare, Function.comp_def]

@[simp] theorem Lexeme.endOf_bares (tokens : List Token) : endOf 0 (bares tokens) = 0 := by
  induction tokens with
  | nil => rfl
  | cons token tokens ih => simpa [bare] using ih

namespace Formula

/-- The pieces of the formula scan to tokens that derive it again.  Where the writer is in no index,
the reader has to be in none either. -/
def Written (formula : Formula) : Prop :=
  ∀ writer reader : Bool, (reader = true → writer = true) →
    ∃ tokens, Spells (pieces writer formula) tokens ∧
      Row reader (bares tokens) (erase formula)

end Formula

variable (writer reader : Bool)

/-! ## Arguments -/

theorem spells_braced {pieces : List Piece} {tokens : List Token} (h : Spells pieces tokens) :
    Spells (Piece.braced pieces) (.braceOpen :: (tokens ++ [.braceClose])) := by
  have hopen : Piece.token? (.text "\x7b") = some .braceOpen := by decide
  have hclose : Piece.token? (.text "\x7d") = some .braceClose := by decide
  exact ((Spells.of_token? hopen).append h).append (.of_token? hclose)

theorem written_argument {content : Formula} (h : content.Written) :
    ∃ tokens, Spells (Piece.braced (Formula.pieces writer content)) (.braceOpen :: tokens) ∧
      Argument reader (bares (.braceOpen :: tokens)) (Formula.erase content) := by
  obtain ⟨tokens, hspells, hrow⟩ := h writer false (by simp)
  refine ⟨tokens ++ [.braceClose], spells_braced hspells, ?_⟩
  simpa [bares] using
    @Argument.braced reader (bare .braceOpen) (bare .braceClose) _ _ rfl hrow rfl

theorem written_arguments {contents : List Formula} (h : ∀ content ∈ contents, content.Written) :
    ∃ tokens, Spells (Formula.bracedAll writer contents) tokens ∧
      Arguments reader (bares tokens) (Formula.eraseAll contents) := by
  induction contents with
  | nil =>
      refine ⟨[], ?_, ?_⟩
      · rw [Formula.bracedAll]
        exact .nil
      · rw [Formula.eraseAll]
        exact .nil
  | cons content contents ih =>
      rw [List.forall_mem_cons] at h
      obtain ⟨first, hfirst, hargument⟩ := written_argument writer reader h.1
      obtain ⟨rest, hrest, harguments⟩ := ih h.2
      refine ⟨.braceOpen :: first ++ rest, ?_, ?_⟩
      · rw [Formula.bracedAll]
        exact hfirst.append hrest
      · rw [Formula.eraseAll, bares, List.map_append]
        exact .cons hargument harguments

/-! ## Scripts -/

def Script.token : Script → Token
  | .superscript => .superscriptMark
  | .subscript => .subscriptMark

theorem Atom.withScript_eq_setScript {atom : Atom} (h : atom.span = {}) (which : Script)
    (content : Formula) :
    atom.withScript which content {} = atom.setScript which (some content) := by
  have hcover : atom.span.cover {} = atom.span := by rw [h]; rfl
  cases which <;> simp only [withScript, setScript, hcover]

theorem written_script (which : Script) {script : Option Formula} (base : Atom)
    (h : ∀ content ∈ script, content.Written) (hspan : base.span = {})
    (hfree : base.script which = none)
    (haccepts : script.isSome = true → base.kind.acceptsScripts = true) :
    ∃ tokens, Spells (Formula.scriptPieces writer which.mark script) tokens ∧
      ∀ {others : List Token} {result : Atom},
        Scripts reader (base.setScript which (Formula.eraseScript script)) (bares others) result →
          Scripts reader base (bares (tokens ++ others)) result := by
  cases script with
  | none =>
      refine ⟨[], by simpa [Formula.scriptPieces] using .nil, fun {others result} hrest => ?_⟩
      rwa [Formula.eraseScript, Atom.setScript_none hfree] at hrest
  | some content =>
      have hmark : Piece.token? (.text which.mark) = some which.token := by cases which <;> decide
      obtain ⟨tokens, hspells, hargument⟩ := written_argument writer reader (h content rfl)
      refine ⟨which.token :: .braceOpen :: tokens, ?_, fun {others result} hrest => ?_⟩
      · rw [Formula.scriptPieces]
        exact (Spells.of_token? hmark).append hspells
      · rw [Formula.eraseScript, ← Atom.withScript_eq_setScript hspan] at hrest
        have hannounced : (bare which.token).token.script? = some which := by cases which <;> rfl
        have hscripts := @Scripts.cons _ _ result which (bare which.token) _ (bares others) _
          hannounced (haccepts rfl) hfree hargument
          (by simpa only [span_bare, endOf_bares] using hrest)
        simpa [bares] using hscripts

def Atom.core (atom : Atom) : Atom where
  kind := atom.kind
  nucleus := atom.nucleus
  arguments := Formula.eraseAll atom.arguments
  boundaries := atom.boundaries
  rows := Formula.eraseRows atom.rows

theorem written_scripts {atom : Atom} (h : ∀ slot ∈ atom.slots, slot.Written)
    (haccepts : atom.hasScripts = true → atom.kind.acceptsScripts = true) :
    ∃ tokens, Spells (Formula.scriptPieces writer "^" atom.superscript ++
        Formula.scriptPieces writer "_" atom.subscript) tokens ∧
      Scripts reader atom.core (bares tokens) atom.erase := by
  have hsuperscript : ∀ content ∈ atom.superscript, Formula.Written content := by
    intro content hcontent
    exact h content (by simp_all [Atom.slots])
  have hsubscript : ∀ content ∈ atom.subscript, Formula.Written content := by
    intro content hcontent
    exact h content (by simp_all [Atom.slots])
  obtain ⟨first, hfirst, hup⟩ := written_script writer reader .superscript atom.core hsuperscript
    rfl rfl (by intro hsome; exact haccepts (by simp [Atom.hasScripts, hsome]))
  obtain ⟨second, hsecond, hdown⟩ := written_script writer reader .subscript
    (atom.core.setScript .superscript (Formula.eraseScript atom.superscript)) hsubscript
    rfl rfl (by intro hsome; exact haccepts (by simp [Atom.hasScripts, hsome]))
  refine ⟨first ++ second, hfirst.append hsecond, hup ?_⟩
  have hboth := @hdown [] atom.erase (by rw [Atom.erase_eq]; exact .nil _)
  rwa [List.append_nil] at hboth

/-! ## Tables -/

theorem spells_newRow : Spells [.command "\\"] [.command "\\"] := .of_token? (by decide)

theorem written_cells {environment : Environment} {cells : List Formula}
    (h : ∀ cell ∈ cells, cell.Written) (hne : cells ≠ [])
    (hcolumns : environment.allowsColumns = true ∨ cells.length = 1) :
    ∃ tokens, Spells (Formula.cellsPieces writer cells) tokens ∧
      Grid environment (bares tokens) [Formula.eraseAll cells] ∧
      ∀ {others : List Token} {rows : List (List Formula)}, Grid environment (bares others) rows →
        Grid environment (bares (tokens ++ .command "\\" :: others))
          (Formula.eraseAll cells :: rows) := by
  induction cells with
  | nil => exact absurd rfl hne
  | cons cell cells ih =>
      obtain ⟨front, hfront, hrow⟩ := h cell List.mem_cons_self writer false (by simp)
      cases cells with
      | nil =>
          refine ⟨front, by rwa [Formula.cellsPieces], ?_, fun {others rows} hrows => ?_⟩
          · simpa [Formula.eraseAll] using Grid.last hrow
          · obtain ⟨next, nexts, others, rfl⟩ := hrows.exists_cons
            simpa [Formula.eraseAll, bares] using Grid.row hrow rfl hrows
      | cons next cells =>
          have hallows : environment.allowsColumns = true := hcolumns.resolve_right (by simp)
          have hmark : Piece.token? (.text "&") = some .columnMark := by decide
          obtain ⟨back, hback, hlast, hmore⟩ :=
            ih (fun cell hcell => h cell (List.mem_cons_of_mem _ hcell)) (by simp) (.inl hallows)
          refine ⟨front ++ .columnMark :: back, ?_, ?_, fun {others rows} hrows => ?_⟩
          · rw [Formula.cellsPieces]
            exact hfront.append ((Spells.of_token? hmark).append hback)
          · have hgrid := @Grid.column _ _ _ (bare .columnMark) _ _ _ hallows hrow rfl hlast
            simpa [Formula.eraseAll, bares] using hgrid
          · have hgrid := @Grid.column _ _ _ (bare .columnMark) _ _ _ hallows hrow rfl (hmore hrows)
            simpa [Formula.eraseAll, bares] using hgrid

theorem written_rows {environment : Environment} {rows : List (List Formula)}
    (h : ∀ row ∈ rows, ∀ cell ∈ row, cell.Written) (hne : rows ≠ [])
    (hshape : ∀ row ∈ rows, row ≠ [] ∧ (environment.allowsColumns = true ∨ row.length = 1)) :
    ∃ tokens, Spells (Formula.rowsPieces writer rows) tokens ∧
      Grid environment (bares tokens) (Formula.eraseRows rows) ∧
      Grid environment (bares (tokens ++ [.command "\\"])) (Formula.eraseRows rows ++ [[[]]]) := by
  have hempty : Grid environment (bares []) [[[]]] := .last (.plain .nil)
  induction rows with
  | nil => exact absurd rfl hne
  | cons row rows ih =>
      rw [List.forall_mem_cons] at h hshape
      obtain ⟨front, hfront, hlast, hmore⟩ := written_cells writer h.1 hshape.1.1 hshape.1.2
      cases rows with
      | nil =>
          refine ⟨front, by rwa [Formula.rowsPieces], ?_, ?_⟩
          · simpa [Formula.eraseRows] using hlast
          · simpa [Formula.eraseRows] using hmore hempty
      | cons next rows =>
          obtain ⟨back, hback, hgrid, hended⟩ := ih h.2 (by simp) hshape.2
          refine ⟨front ++ .command "\\" :: back, ?_, ?_, ?_⟩
          · rw [Formula.rowsPieces]
            exact hfront.append (spells_newRow.append hback)
          · simpa [Formula.eraseRows] using hmore hgrid
          · simpa [Formula.eraseRows] using hmore hended

theorem dropEmptyRow_eq_self {rows : List (List Formula)} (h : ¬Atom.needsRowEnd rows = true) :
    dropEmptyRow rows = rows := by
  rcases List.eq_nil_or_concat rows with rfl | ⟨front, last, rfl⟩
  · rfl
  · rw [List.concat_eq_append] at h ⊢
    refine dropEmptyRow_of_ne front ?_
    rintro rfl
    exact h (by simp [Atom.needsRowEnd])

theorem written_grid {environment : Environment} {rows : List (List Formula)}
    (h : ∀ row ∈ rows, ∀ cell ∈ row, cell.Written)
    (hshape : ∀ row ∈ rows, row ≠ [] ∧ (environment.allowsColumns = true ∨ row.length = 1)) :
    ∃ tokens found, Spells (Formula.rowsPieces writer rows ++
        if Atom.needsRowEnd rows then [.command "\\"] else []) tokens ∧
      Grid environment (bares tokens) found ∧ dropEmptyRow found = Formula.eraseRows rows := by
  by_cases hne : rows = []
  · subst hne
    exact ⟨[], [[[]]], by simpa [Formula.rowsPieces] using .nil, .last (.plain .nil), rfl⟩
  obtain ⟨tokens, hspells, hgrid, hended⟩ := written_rows writer h hne hshape
  by_cases hend : Atom.needsRowEnd rows = true
  · rw [if_pos hend]
    exact ⟨_, _, hspells.append spells_newRow, hended, dropEmptyRow_concat _⟩
  · rw [if_neg hend, List.append_nil]
    refine ⟨tokens, _, hspells, hgrid, ?_⟩
    rw [Formula.eraseRows_eq_map, ← map_dropEmptyRow, dropEmptyRow_eq_self hend]

/-! ## Symbols -/

theorem written_character {kind : AtomKind} {nucleus : String} {c : Char}
    (h : Literal.kind? c = some kind) (hnucleus : Literal.nucleus c = nucleus)
    (hclose : c = ']' → reader = false) :
    ∃ token, Spells [.text (String.singleton c)] [token] ∧
      Nucleus reader [bare token] (.symbol kind nucleus) := by
  have htoken := Literal.ofChar?_of_kind? h
  refine ⟨_, .character htoken .nil, ?_⟩
  subst hnucleus
  by_cases hopen : c = '['
  · subst hopen
    cases h
    exact .bracketOpen rfl
  · by_cases hbracket : c = ']'
    · subst hbracket
      rw [hclose rfl]
      cases h
      exact .bracketClose rfl
    · rw [if_neg hopen, if_neg hbracket]
      exact .character rfl h

theorem written_command {name : String} {template : Template}
    (hfind : Command.find? name = some (.atom template)) (hnone : template.arguments = 0) :
    Nucleus reader [bare (.command name)] (.symbol template.kind template.nucleus) :=
  .command rfl hfind (by simp) .nil hnone.symm

theorem written_symbol (hflag : reader = true → writer = true) {kind : AtomKind} {nucleus : String}
    (h : Atom.Produced kind nucleus) (hinner : kind ≠ .inner) (htable : kind ≠ .table) :
    (∃ c token, Literal.kind? c = some kind ∧
      Spells [Atom.symbolPiece writer kind nucleus] [token] ∧
      Nucleus reader [bare token] (.symbol kind nucleus)) ∨
    ∃ name template, Atom.symbolPiece writer kind nucleus = .command name ∧
      Command.name? kind nucleus = some name ∧ Piece.isName name = true ∧
      Command.find? name = some (.atom template) ∧ template.kind.family = kind.family ∧
      template.nucleus = nucleus := by
  unfold Atom.symbolPiece
  cases hchar : Literal.char? kind nucleus with
  | some c =>
      obtain ⟨hkind, hnucleus⟩ := Literal.kind?_of_char? hchar
      refine .inl ⟨c, ?_⟩
      dsimp only
      split
      · rename_i hindex
        obtain ⟨rfl, -⟩ := hindex
        cases hkind
        subst hnucleus
        exact ⟨.command "rbrack", rfl, .of_token? (by decide),
          written_command reader Command.find?_rbrack rfl⟩
      · rename_i hplain
        obtain ⟨token, hspells, hderived⟩ := written_character reader hkind hnucleus fun hc => by
          grind
        exact ⟨token, hkind, hspells, hderived⟩
  | none =>
      cases hname : Command.name? kind nucleus with
      | some name =>
          obtain ⟨hwritable, template, hfind, hfamily, hnucleus⟩ := Command.find?_of_name? hname
          exact .inr ⟨name, template, rfl, rfl, hwritable, hfind, hfamily, hnucleus⟩
      | none =>
          cases h with
          | @character c _ hkind =>
              obtain ⟨hnucleus, htoken⟩ := Literal.nucleus_of_char?_eq_none hkind hchar
              refine .inl ⟨c, .character c, hkind, ?_, .character rfl hkind⟩
              rw [hnucleus]
              exact .character htoken .nil
          | command hfind hfamily =>
              obtain ⟨canonical, hcanonical⟩ := Command.exists_name? hfind hfamily
              rw [hname] at hcanonical
              cases hcanonical
          | group => exact absurd rfl hinner
          | environment => exact absurd rfl htable

theorem written_root {name : String} {template : Template} {arguments : List Formula}
    (hfind : Command.find? name = some (.atom template)) (hradical : template.kind = .radical)
    (hwritten : ∀ content ∈ arguments, content.Written) (hle : 1 ≤ arguments.length)
    (hge : arguments.length ≤ 2) :
    ∃ tokens, Spells (Formula.rootPieces writer arguments) tokens ∧
      Nucleus reader (bares (.command name :: tokens))
        { kind := .radical, nucleus := template.nucleus
          arguments := Formula.eraseAll arguments } := by
  have hone : template.arguments = 1 := by
    rw [Command.arguments_of_find? hfind, hradical]
    rfl
  have hoptional := (Command.optionalArgument_of_find? hfind).mpr hradical
  match arguments with
  | [] | _ :: _ :: _ :: _ => simp at hle hge
  | [radicand] =>
      rw [List.forall_mem_singleton] at hwritten
      obtain ⟨tokens, hspells, hargument⟩ := written_argument writer reader hwritten
      refine ⟨_, by rwa [Formula.rootPieces], ?_⟩
      have hbrace : ∀ next ∈ (bares (.braceOpen :: tokens)).head?, next.token ≠ .bracketOpen := by
        rintro next ⟨⟩
        simp [bare]
      have harguments := Arguments.cons hargument .nil
      rw [List.append_nil] at harguments
      have hcommand := @Nucleus.command reader (bare (.command name)) name template _ _ rfl hfind
        (fun _ => hbrace) harguments hone.symm
      simpa [bares, hradical, Formula.eraseAll] using hcommand
  | [radicand, index] =>
      obtain ⟨hradicand, hindex⟩ : radicand.Written ∧ index.Written := by simpa using hwritten
      obtain ⟨front, hfront, hrow⟩ := hindex true true id
      obtain ⟨back, hback, hargument⟩ := written_argument writer reader hradicand
      have hopen : Piece.token? (.text "[") = some .bracketOpen := by decide
      have hclose : Piece.token? (.text "]") = some .bracketClose := by decide
      refine ⟨.bracketOpen :: front ++ .bracketClose :: .braceOpen :: back, ?_, ?_⟩
      · rw [Formula.rootPieces]
        exact ((Spells.of_token? hopen).append hfront).append
          ((Spells.of_token? hclose).append hback)
      · have hindexed := @Nucleus.indexed reader (bare (.command name)) (bare .bracketOpen)
          (bare .bracketClose) name template _ _ _ _ rfl hfind hoptional rfl hrow rfl
          (.cons hargument .nil) hone.symm
        simpa [bares, hradical, Formula.eraseAll] using hindexed

theorem written_limits {nucleus : String} {usual : Bool} (limits : Bool)
    (h : Command.defaultLimits? nucleus = some usual) :
    ∃ tokens, Spells (Atom.limitsPieces limits nucleus) tokens ∧
      Limits (.symbol (.largeOperator usual) nucleus) (bares tokens)
        (.symbol (.largeOperator limits) nucleus) := by
  unfold Atom.limitsPieces
  rw [h]
  by_cases husual : usual = limits
  · subst husual
    exact ⟨[], by simpa using .nil, .nil _⟩
  · obtain ⟨name, hcommand, hname, hfind⟩ : ∃ name,
        (if limits then "limits" else "nolimits") = name ∧ Piece.isName name = true ∧
          Command.find? name = some (.limits limits) := by
      cases limits with
      | true => exact ⟨_, rfl, by decide, Command.find?_limits⟩
      | false => exact ⟨_, rfl, by decide, Command.find?_nolimits⟩
    refine ⟨[.command name], ?_, .cons rfl rfl rfl hfind (.nil _)⟩
    simpa [husual, hcommand] using Spells.command hname .nil

/-! ## Atoms -/

namespace Atom

theorem core_eq {atom : Atom} (hboundaries : atom.boundaries = none) (hrows : atom.rows = []) :
    atom.core =
      { kind := atom.kind, nucleus := atom.nucleus
        arguments := Formula.eraseAll atom.arguments } := by
  simp [core, hboundaries, hrows, Formula.eraseRows]

def Body (atom : Atom) (body : List Piece) : Prop :=
  pieces writer atom = body ++ Formula.scriptPieces writer "^" atom.superscript ++
    Formula.scriptPieces writer "_" atom.subscript

theorem Admissible.body_symbol {atom : Atom} (h : atom.Admissible) (hinner : atom.kind ≠ .inner)
    (htable : atom.kind ≠ .table) (hradical : atom.kind ≠ .radical)
    (hoperator : ∀ limits, atom.kind ≠ .largeOperator limits) :
    Body writer atom
      (symbolPiece writer atom.kind atom.nucleus :: Formula.bracedAll writer atom.arguments) := by
  have harguments := h.arguments_eq_nil
  obtain ⟨kind, nucleus, arguments, superscript, subscript, boundaries, rows, span⟩ := atom
  simp only at hinner htable hradical hoperator harguments
  cases kind with
  | fraction | accent | underline | overline => simp [Body, pieces]
  | inner => exact absurd rfl hinner
  | table => exact absurd rfl htable
  | radical => exact absurd rfl hradical
  | largeOperator limits => exact absurd rfl (hoperator limits)
  | _ =>
      cases harguments rfl
      simp [Body, pieces, Formula.bracedAll]

end Atom

def WrittenBody (atom : Atom) : Prop :=
  ∃ body first second nucleus, Atom.Body writer atom body ∧ Spells body (first ++ second) ∧
    Nucleus reader (bares first) nucleus ∧ Limits nucleus (bares second) atom.core

variable {atom : Atom} (h : atom.Admissible) (hslots : ∀ slot ∈ atom.slots, slot.Written)
include h hslots

theorem writtenBody_group (hkind : atom.kind = .inner) (hnucleus : atom.nucleus = "") :
    WrittenBody writer reader atom := by
  have hle := h.le_arguments
  have hge := h.arguments_le
  have hrows := h.rows_eq_nil (by rw [hkind]; simp)
  have hfences := h.boundaries
  obtain ⟨kind, nucleus, arguments, superscript, subscript, boundaries, rows, span⟩ := atom
  simp only at hkind hnucleus hrows hle hge hfences
  subst hkind hnucleus hrows
  obtain ⟨content, rfl⟩ : ∃ content, arguments = [content] :=
    List.length_eq_one_iff.mp (Nat.le_antisymm hge hle)
  obtain ⟨tokens, hspells, hrow⟩ := hslots content (by simp [Atom.slots]) writer false (by simp)
  cases boundaries with
  | none =>
      refine ⟨Piece.braced (Formula.pieces writer content), .braceOpen :: tokens ++ [.braceClose],
        [], .group (Formula.erase content), ?_, ?_, ?_, .nil _⟩
      · simp [Atom.Body, Atom.pieces, Formula.firstPieces]
      · simpa using spells_braced hspells
      · simpa [bares] using
          @Nucleus.group reader (bare .braceOpen) (bare .braceClose) _ _ rfl hrow rfl
  | some fence =>
      obtain ⟨left, right⟩ := fence
      obtain ⟨-, hleft, hright⟩ := hfences _ rfl
      obtain ⟨leftToken, hleftSpells, hleftGlyph⟩ := Delimiter.exists_token_of_isGlyph hleft
      obtain ⟨rightToken, hrightSpells, hrightGlyph⟩ := Delimiter.exists_token_of_isGlyph hright
      have hopened : Spells [.command "left"] [.command "left"] := .of_token? (by decide)
      have hclosed : Spells [.command "right"] [.command "right"] := .of_token? (by decide)
      refine ⟨[.command "left", Delimiter.piece left] ++ Formula.pieces writer content ++
          [.command "right", Delimiter.piece right],
        .command "left" :: leftToken :: tokens ++ [.command "right", rightToken], [],
        .group (Formula.erase content) (some ⟨left, right⟩), ?_, ?_, ?_, .nil _⟩
      · simp [Atom.Body, Atom.pieces, Formula.firstPieces]
      · simpa using ((hopened.append hleftSpells).append hspells).append
          (hclosed.append hrightSpells)
      · simpa [bares] using
          @Nucleus.fenced reader (bare (.command "left")) (bare leftToken) (bare (.command "right"))
            (bare rightToken) _ _ _ _ _ rfl Command.find?_left hleftGlyph hrow rfl hrightGlyph

theorem writtenBody_table {environment : Environment} (hkind : atom.kind = .table)
    (hnucleus : environment.name = atom.nucleus) : WrittenBody writer reader atom := by
  have harguments := h.arguments_eq_nil (by rw [hkind]; rfl)
  have hboundaries := h.boundaries_eq_none (by rw [hkind]; simp)
  have hcells := h.cells
  obtain ⟨kind, nucleus, arguments, superscript, subscript, boundaries, rows, span⟩ := atom
  simp only at hkind hnucleus harguments hboundaries hcells
  subst hkind hnucleus harguments hboundaries
  have hshape : ∀ row ∈ rows, row ≠ [] ∧ (environment.allowsColumns = true ∨ row.length = 1) := by
    intro row hrow
    obtain ⟨hne, hone⟩ := hcells row hrow
    refine ⟨hne, ?_⟩
    cases environment with
    | gathered => exact .inr (hone rfl)
    | _ => exact .inl rfl
  have hwritten : ∀ row ∈ rows, ∀ cell ∈ row, Formula.Written cell := fun row hrow cell hcell =>
    hslots cell (by simp only [Atom.slots, List.mem_append, List.mem_flatten]; grind)
  obtain ⟨tokens, found, hspells, hgrid, hfound⟩ := written_grid writer hwritten hshape
  refine ⟨Atom.environmentPieces "begin" environment.name ++ (Formula.rowsPieces writer rows ++
      if Atom.needsRowEnd rows then [.command "\\"] else []) ++
      Atom.environmentPieces "end" environment.name,
    .environmentBegin environment :: tokens ++ [.environmentEnd environment], [],
    { kind := .table, nucleus := environment.name, rows := Formula.eraseRows rows }, ?_, ?_, ?_,
    .nil _⟩
  · simp [Atom.Body, Atom.pieces]
  · simpa [Atom.environmentPieces] using
      ((Spells.environmentBegin environment .nil).append hspells).append
        (.environmentEnd environment .nil)
  · rw [← hfound]
    simpa [bares] using @Nucleus.table reader (bare (.environmentBegin environment))
      (bare (.environmentEnd environment)) environment _ _ rfl hgrid rfl

theorem writtenBody_symbol (hflag : reader = true → writer = true)
    (hproduced : Atom.Produced atom.kind atom.nucleus) (hinner : atom.kind ≠ .inner)
    (htable : atom.kind ≠ .table) (hradical : atom.kind ≠ .radical)
    (hoperator : ∀ limits, atom.kind ≠ .largeOperator limits) :
    WrittenBody writer reader atom := by
  have hcore := Atom.core_eq (h.boundaries_eq_none hinner) (h.rows_eq_nil htable)
  have hbody := h.body_symbol writer hinner htable hradical hoperator
  obtain ⟨c, token, hkind, hspells, hnucleus⟩ | ⟨name, template, hpiece, -, hname, hfind, hfamily,
    hnucleus⟩ := written_symbol writer reader hflag hproduced hinner htable
  · have harguments := h.arguments_eq_nil (Literal.argumentRange_of_kind? hkind)
    rw [harguments] at hbody hcore
    refine ⟨_, [token], [], _, hbody, by simpa [Formula.bracedAll] using hspells, hnucleus, ?_⟩
    rw [hcore]
    exact .nil _
  · have hwritten : ∀ content ∈ atom.arguments, Formula.Written content := fun content hcontent =>
      hslots content (by simp [Atom.slots, hcontent])
    obtain ⟨tokens, hspells, harguments⟩ := written_arguments writer reader hwritten
    have hkind : template.kind = atom.kind := AtomKind.eq_of_family_eq hfamily hoperator
    have hlength : atom.arguments.length = template.arguments := by
      have hle := h.le_arguments
      have hge := h.arguments_le
      rw [Command.arguments_of_find? hfind, hkind]
      rw [AtomKind.argumentRange_snd hradical] at hge
      exact Nat.le_antisymm hge hle
    have hplain : template.optionalArgument ≠ true := by
      rw [Ne, Command.optionalArgument_of_find? hfind, hkind]
      exact hradical
    refine ⟨_, .command name :: tokens, [], _, hbody, ?_,
      .command rfl hfind (fun hoptional => absurd hoptional hplain) harguments ?_, ?_⟩
    · rw [hpiece]
      exact .command hname (by simpa using hspells)
    · rw [Formula.eraseAll_eq_map, List.length_map, hlength]
    · simp only [hcore, hkind, hnucleus, span_bare, endOf_bares]
      exact .nil _

theorem writtenBody_radical (hflag : reader = true → writer = true)
    (hproduced : Atom.Produced atom.kind atom.nucleus) (hkind : atom.kind = .radical) :
    WrittenBody writer reader atom := by
  have hcore := Atom.core_eq (h.boundaries_eq_none (by simp [hkind]))
    (h.rows_eq_nil (by simp [hkind]))
  obtain ⟨c, -, hliteral, -⟩ | ⟨name, template, hpiece, -, hname, hfind, hfamily, hnucleus⟩ :=
    written_symbol writer reader hflag hproduced (by simp [hkind]) (by simp [hkind])
  · rw [hkind] at hliteral
    simpa using Literal.kind_mem_of_kind? hliteral
  have hle := h.le_arguments
  have hge := h.arguments_le
  rw [hkind] at hfamily hle hge hcore
  have hwritten : ∀ content ∈ atom.arguments, Formula.Written content := by
    intro content hcontent
    exact hslots content (by simp [Atom.slots, hcontent])
  obtain ⟨tokens, hspells, hroot⟩ := written_root writer reader hfind
    (AtomKind.eq_of_family_eq hfamily (by simp)) hwritten hle hge
  refine ⟨.command name :: Formula.rootPieces writer atom.arguments, .command name :: tokens, [],
    _, ?_, ?_, hroot, ?_⟩
  · obtain ⟨kind, nucleus, arguments, superscript, subscript, boundaries, rows, span⟩ := atom
    simp only at hkind hpiece
    subst hkind
    simp [Atom.Body, Atom.pieces, hpiece]
  · simpa using Spells.command hname hspells
  · rw [hcore, hnucleus]
    exact .nil _

theorem writtenBody_largeOperator (hflag : reader = true → writer = true)
    (hproduced : Atom.Produced atom.kind atom.nucleus) {limits : Bool}
    (hkind : atom.kind = .largeOperator limits) : WrittenBody writer reader atom := by
  have hcore := Atom.core_eq (h.boundaries_eq_none (by simp [hkind]))
    (h.rows_eq_nil (by simp [hkind]))
  have harguments := h.arguments_eq_nil (by rw [hkind]; rfl)
  obtain ⟨c, -, hliteral, -⟩ | ⟨name, -, hpiece, hcanonical, hname, -⟩ :=
    written_symbol writer reader hflag hproduced (by simp [hkind]) (by simp [hkind])
  · rw [hkind] at hliteral
    simpa using Literal.kind_mem_of_kind? hliteral
  rw [hkind] at hcanonical
  obtain ⟨template, usual, hfind, hnucleus, htemplate, hdefault⟩ :=
    Command.defaultLimits?_of_name? hcanonical
  have hnone : template.arguments = 0 := by
    rw [Command.arguments_of_find? hfind, htemplate]
    rfl
  have hderived := written_command reader hfind hnone
  rw [htemplate, hnucleus] at hderived
  obtain ⟨tokens, hspells, hlimits⟩ := written_limits limits hdefault
  refine ⟨.command name :: Atom.limitsPieces limits atom.nucleus, [.command name], tokens, _, ?_,
    .command hname hspells, hderived, ?_⟩
  · obtain ⟨kind, nucleus, arguments, superscript, subscript, boundaries, rows, span⟩ := atom
    simp only at hkind hpiece
    subst hkind
    simp [Atom.Body, Atom.pieces, hpiece]
  · rw [hcore, hkind, harguments]
    exact hlimits

theorem writtenBody (hflag : reader = true → writer = true)
    (hproduced : Atom.Produced atom.kind atom.nucleus) : WrittenBody writer reader atom := by
  by_cases hinner : atom.kind = .inner
  · rw [hinner] at hproduced
    exact writtenBody_group writer reader h hslots hinner hproduced.nucleus_of_inner
  by_cases htable : atom.kind = .table
  · rw [htable] at hproduced
    obtain ⟨environment, hnucleus⟩ := hproduced.environment_of_table
    exact writtenBody_table writer reader h hslots htable hnucleus
  by_cases hradical : atom.kind = .radical
  · exact writtenBody_radical writer reader h hslots hflag hproduced hradical
  by_cases hoperator : ∃ limits, atom.kind = .largeOperator limits
  · obtain ⟨limits, hlimits⟩ := hoperator
    exact writtenBody_largeOperator writer reader h hslots hflag hproduced hlimits
  · exact writtenBody_symbol writer reader h hslots hflag hproduced hinner htable hradical
      (not_exists.mp hoperator)

theorem written_item (hflag : reader = true → writer = true)
    (hproduced : Atom.Produced atom.kind atom.nucleus) :
    ∃ tokens, Spells (Atom.pieces writer atom) tokens ∧
      ∀ {others : List Token} {formula : Formula}, Items reader (bares others) formula →
        Items reader (bares (tokens ++ others)) (atom.erase :: formula) := by
  obtain ⟨body, first, second, nucleus, hbody, hspells, hnucleus, hlimits⟩ :=
    writtenBody writer reader h hslots hflag hproduced
  obtain ⟨marks, hmarks, hscripts⟩ := written_scripts writer reader hslots h.scripts
  refine ⟨first ++ second ++ marks, ?_, fun {others formula} hothers => ?_⟩
  · rw [hbody, List.append_assoc]
    exact hspells.append hmarks
  · simpa [bares] using Items.cons hnucleus hlimits hscripts hothers

theorem written_scriptBase (hbase : atom.IsScriptBase) :
    ∃ tokens, Spells (Atom.pieces writer atom) tokens ∧
      ∀ {others : List Token} {formula : Formula}, Items reader (bares others) formula →
        Row reader (bares (tokens ++ others)) (atom.erase :: formula) := by
  obtain ⟨hkind, hnucleus, hhas⟩ := hbase
  have hcore := Atom.core_eq (h.boundaries_eq_none (by simp [hkind]))
    (h.rows_eq_nil (by simp [hkind]))
  rw [hkind, hnucleus, h.arguments_eq_nil (by rw [hkind]; rfl)] at hcore
  have hpiece : Atom.symbolPiece writer .ordinary "" = .text "" := by
    have hchar : Literal.char? .ordinary "" = none := by decide
    simp [Atom.symbolPiece, hchar, Command.name?_ordinary_empty]
  have hbody := h.body_symbol writer (by simp [hkind]) (by simp [hkind]) (by simp [hkind])
    (by simp [hkind])
  obtain ⟨tokens, hspells, hscripts⟩ := written_scripts writer reader hslots h.scripts
  refine ⟨tokens, ?_, fun {others formula} hothers => ?_⟩
  · rw [hbody, hkind, hnucleus, hpiece, h.arguments_eq_nil (by rw [hkind]; rfl)]
    simpa [Formula.bracedAll] using Spells.empty hspells
  · rw [hcore] at hscripts
    cases tokens with
    | nil =>
        have hnone : ∀ {operator found : Atom}, Scripts reader operator [] found →
            operator.hasScripts = found.hasScripts := by
          intro operator found hderived
          cases hderived
          rfl
        have hsame := hnone hscripts
        rw [Atom.hasScripts_erase, hhas] at hsame
        cases hsame
    | cons mark tokens =>
        simpa [bares] using @Row.scripted reader (bare mark) (bares tokens) _ _ _ hscripts hothers

omit h hslots

/-! ## Formulas -/

namespace Formula

theorem written_items {formula : Formula} (hflag : reader = true → writer = true)
    (hatoms : ∀ atom ∈ formula, atom.Admissible)
    (hproduced : ∀ atom ∈ formula, Atom.Produced atom.kind atom.nucleus)
    (hslots : ∀ atom ∈ formula, ∀ slot ∈ atom.slots, slot.Written) :
    ∃ tokens, Spells (pieces writer formula) tokens ∧
      Items reader (bares tokens) (erase formula) := by
  induction formula with
  | nil => exact ⟨[], by simpa [pieces] using .nil, by simpa [erase] using .nil⟩
  | cons atom formula ih =>
      rw [List.forall_mem_cons] at hatoms hproduced hslots
      obtain ⟨front, hfront, hitem⟩ :=
        written_item writer reader hatoms.1 hslots.1 hflag hproduced.1
      obtain ⟨back, hback, hitems⟩ := ih hatoms.2 hproduced.2 hslots.2
      refine ⟨front ++ back, ?_, hitem hitems⟩
      rw [pieces]
      exact hfront.append hback

theorem WellFormed.written {formula : Formula} (h : WellFormed formula) : Written formula := by
  induction h with
  | @intro formula hatoms htail _ ih =>
      intro writer reader hflag
      cases formula with
      | nil => exact ⟨[], by simpa [pieces] using .nil, .plain (by simpa [erase] using .nil)⟩
      | cons atom formula =>
          rw [List.forall_mem_cons] at hatoms ih
          obtain ⟨back, hback, hitems⟩ :=
            written_items writer reader hflag hatoms.2 htail ih.2
          rw [pieces, erase]
          rcases hatoms.1.symbol with hproduced | hbase
          · obtain ⟨front, hfront, hitem⟩ :=
              written_item writer reader hatoms.1 ih.1 hflag hproduced
            exact ⟨front ++ back, hfront.append hback, .plain (hitem hitems)⟩
          · obtain ⟨front, hfront, hrow⟩ := written_scriptBase writer reader hatoms.1 ih.1 hbase
            exact ⟨front ++ back, hfront.append hback, hrow hitems⟩

end Formula

end TexMath
