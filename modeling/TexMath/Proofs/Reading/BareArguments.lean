import TexMath.Proofs.Reading.Depth
import TexMath.Proofs.Reading.Slots

/-!
# Arguments without braces

An atom without scripts and limits is the same argument with braces around it and without them: it
gives the same tree, and it takes one level both ways.
-/

namespace TexMath

open Grammar Lexeme Text

theorem Command.isName_of_find? {name : String} {command : Command}
    (h : find? name = some command) : Piece.isName name = true := by
  have haliases : ∀ entry ∈ aliases, Piece.isName entry.1 = true := by decide +kernel
  by_cases halias : name ∈ aliases.map Prod.fst
  · obtain ⟨entry, hentry, rfl⟩ := List.mem_map.mp halias
    exact haliases entry hentry
  · obtain ⟨before, after, htable, -⟩ := List.lookup_eq_some_iff.mp h
    rw [canonicalName_of_notMem halias] at htable
    exact isName_of_mem_table (name, command) (by simp [htable])

/-! ## One atom by itself -/

namespace Grammar

theorem Scripts.hasScripts {inIndex : Bool} {lexemes : List Lexeme} {base atom : Atom} :
    Scripts inIndex base lexemes atom → base.hasScripts = true → atom.hasScripts = true
  | .nil _, hbase => hbase
  | .cons _ _ _ _ hrest, _ => hrest.hasScripts (Atom.hasScripts_withScript ..)

variable {inIndex : Bool} {lexemes : List Lexeme} {base operator atom : Atom}

theorem Scripts.eq_nil (h : Scripts inIndex base lexemes atom)
    (hscripts : atom.hasScripts = false) : lexemes = [] ∧ base = atom := by
  cases h with
  | nil => exact ⟨rfl, rfl⟩
  | cons _ _ _ _ hrest =>
      rw [hrest.hasScripts (Atom.hasScripts_withScript ..)] at hscripts
      cases hscripts

theorem Limits.kind (h : Limits base lexemes operator) {usual : Bool}
    (hkind : base.kind = .largeOperator usual) :
    ∃ usual, operator.kind = .largeOperator usual := by
  induction h generalizing usual with
  | nil => exact ⟨usual, hkind⟩
  | cons _ _ _ _ _ ih => exact ih rfl

/-- The atom takes no limits command from among the tokens.  Only a large operator takes any, and it
has no other tokens but its own. -/
def WithoutLimits (atom : Atom) (tokens : List Token) : Prop :=
  ∀ usual, atom.kind = .largeOperator usual → ∀ name value, .command name ∈ tokens →
    Command.find? name ≠ some (.limits value)

theorem Limits.eq_nil_of_withoutLimits (h : Limits base lexemes operator)
    (hlimits : WithoutLimits operator (lexemes.map token)) : lexemes = [] ∧ base = operator := by
  cases h with
  | nil => exact ⟨rfl, rfl⟩
  | @cons _ _ _ value name lexeme _ _ _ htoken hfind hrest =>
      obtain ⟨usual, husual⟩ := hrest.kind rfl
      exact absurd hfind (hlimits usual husual name value (by simp [htoken]))

theorem Row.nucleus (h : Row inIndex lexemes [atom]) (hscripts : atom.hasScripts = false)
    (hlimits : WithoutLimits atom (lexemes.map token)) : Nucleus inIndex lexemes atom := by
  cases h with
  | plain hitems =>
      cases hitems with
      | cons hnucleus hoperator hatom hrest =>
          cases hrest
          obtain ⟨rfl, rfl⟩ := hatom.eq_nil hscripts
          obtain ⟨rfl, rfl⟩ := hoperator.eq_nil_of_withoutLimits
            fun usual husual name value hmem => hlimits usual husual name value (by simp [hmem])
          simpa using hnucleus
  | scripted hatom _ => cases (hatom.eq_nil hscripts).1

theorem Row.argument (h : Row false lexemes [atom]) (hscripts : atom.hasScripts = false)
    (hlimits : WithoutLimits atom (lexemes.map token))
    (hbrace : (lexemes.map token).head? ≠ some .braceOpen) : Argument false lexemes [atom] := by
  have hnucleus := h.nucleus hscripts hlimits
  cases lexemes with
  | nil => exact absurd rfl hnucleus.ne_nil
  | cons lexeme lexemes => exact .bare (by simpa using hbrace) hnucleus

end Grammar

/-! ## Slots -/

/-- A slot for an argument: of a command, with other arguments in front of it and behind it, of a
command behind its index, or of a script. -/
inductive Slot where
  | argument (name : String) (template : Template) (before after : Nat)
  | indexed (name : String) (template : Template) (before after : Nat)
  | script (which : Script)

namespace Slot

/-- The slot is one of the command.  No bracket begins the argument of a command that would take it
for the start of its index. -/
def Fits (first? : Option Token) : Slot → Prop
  | argument name template before after =>
      Command.find? name = some (.atom template) ∧ before + 1 + after = template.arguments ∧
        (template.optionalArgument = true → first? ≠ some .bracketOpen)
  | indexed name template before after =>
      Command.find? name = some (.atom template) ∧ before + 1 + after = template.arguments ∧
        template.optionalArgument = true
  | script _ => True

theorem Fits.of_brace {slot : Slot} {first? : Option Token} (h : slot.Fits first?) :
    slot.Fits (some .braceOpen) := by
  cases slot with
  | argument => exact ⟨h.1, h.2.1, fun _ => by simp⟩
  | indexed => exact h
  | script => trivial

def symbols (c : Char) : Nat → String
  | 0 => ""
  | count + 1 => " " ++ String.singleton c ++ symbols c count

def write (c : Char) (text : String) : Slot → String
  | argument name _ before after => "\\" ++ name ++ (symbols c before ++ (text ++ symbols c after))
  | indexed name _ before after =>
      "\\" ++ name ++ ("[" ++ (String.singleton c ++
        ("]" ++ (symbols c before ++ (text ++ symbols c after)))))
  | script which => String.singleton c ++ (which.mark ++ text)

def lexemes (c : Char) (own : List Lexeme) : Slot → List Lexeme
  | argument name _ before after =>
      bare (.command name) :: (List.replicate before (bare (.character c)) ++
        (own ++ List.replicate after (bare (.character c))))
  | indexed name _ before after =>
      bare (.command name) :: bare .bracketOpen :: [bare (.character c)] ++ bare .bracketClose ::
        (List.replicate before (bare (.character c)) ++
          (own ++ List.replicate after (bare (.character c))))
  | script which => bare (.character c) :: bare which.token :: own

def atom (symbol : Atom) (content : Formula) : Slot → Atom
  | argument _ template before after =>
      { kind := template.kind, nucleus := template.nucleus
        arguments := List.replicate before [symbol] ++ content :: List.replicate after [symbol] }
  | indexed _ template before after =>
      { kind := template.kind, nucleus := template.nucleus
        arguments := List.replicate before [symbol] ++
          content :: List.replicate after [symbol] ++ [[symbol]] }
  | script which => symbol.setScript which (some content)

variable {c : Char} {kind : AtomKind} {own : List Lexeme} {content : Formula} {text back : String}
  {tokens : List Token}

/-! ### Trees -/

theorem nucleus_symbol (inIndex : Bool) (hc : Literal.kind? c = some kind) :
    Nucleus inIndex [bare (.character c)] (.symbol kind (Literal.nucleus c)) :=
  .character rfl hc

theorem argument_symbol (hc : Literal.kind? c = some kind) :
    Argument false [bare (.character c)] [.symbol kind (Literal.nucleus c)] :=
  .bare (by simp [bare]) (nucleus_symbol false hc)

theorem arguments_replicate (hc : Literal.kind? c = some kind) {rest : List Lexeme}
    {contents : List Formula} (h : Arguments false rest contents) (count : Nat) :
    Arguments false (List.replicate count (bare (.character c)) ++ rest)
      (List.replicate count [.symbol kind (Literal.nucleus c)] ++ contents) := by
  induction count with
  | zero => exact h
  | succ count ih => simpa [List.replicate_succ] using Arguments.cons (argument_symbol hc) ih

theorem arguments_around (hc : Literal.kind? c = some kind) (h : Argument false own content)
    (before after : Nat) :
    Arguments false
      (List.replicate before (bare (.character c)) ++
        (own ++ List.replicate after (bare (.character c))))
      (List.replicate before [.symbol kind (Literal.nucleus c)] ++
        content :: List.replicate after [.symbol kind (Literal.nucleus c)]) := by
  have hafter := arguments_replicate hc .nil after
  rw [List.append_nil, List.append_nil] at hafter
  exact arguments_replicate hc (.cons h hafter) before

theorem exists_row {slot : Slot} (hc : Literal.kind? c = some kind) (h : Argument false own content)
    (hfits : slot.Fits (own.map token).head?) :
    ∃ found, Row false (slot.lexemes c own) [found] ∧
      found.erase = (slot.atom (.symbol kind (Literal.nucleus c)) content).erase := by
  have haround := arguments_around hc h
  cases slot with
  | argument name template before after =>
      obtain ⟨hfind, hcount, hopen⟩ := hfits
      have hnext : template.optionalArgument = true →
          ∀ next ∈ (List.replicate before (bare (.character c)) ++
            (own ++ List.replicate after (bare (.character c)))).head?,
            next.token ≠ .bracketOpen := by
        intro hoptional
        cases before <;> cases own <;> cases after <;>
          simp_all [List.replicate_succ, bare]
      have hnucleus := @Nucleus.command false (bare (.command name)) _ _ _ _ rfl hfind hnext
        (haround before after) (by simp; omega)
      exact ⟨_, hnucleus.row, by simp [Atom.erase_eq, atom]⟩
  | indexed name template before after =>
      obtain ⟨hfind, hcount, hoptional⟩ := hfits
      have hindex : Row true [bare (.character c)] [.symbol kind (Literal.nucleus c)] := by
        simpa using Row.plain (.cons (nucleus_symbol true hc) (.nil _) (.nil _) .nil)
      have hnucleus := @Nucleus.indexed false (bare (.command name)) (bare .bracketOpen)
        (bare .bracketClose) _ _ _ _ _ _ rfl hfind hoptional rfl hindex rfl (haround before after)
        (by simp; omega)
      exact ⟨_, hnucleus.row, by simp [Atom.erase_eq, atom]⟩
  | script which =>
      let base : Atom := .symbol kind (Literal.nucleus c)
      have hannounced : (bare which.token).token.script? = some which := by cases which <;> rfl
      have hkinds := Literal.kind_mem_of_kind? hc
      have haccepts : base.kind.acceptsScripts = true := by
        simp only [List.mem_cons, List.not_mem_nil, or_false] at hkinds
        rcases hkinds with rfl | rfl | rfl | rfl | rfl | rfl <;> rfl
      have hscripts := Scripts.cons hannounced haccepts (by cases which <;> rfl) h (.nil _)
      have hrow := Row.plain (.cons (nucleus_symbol false hc) (.nil base) hscripts .nil)
      refine ⟨_, by simpa [lexemes] using hrow, ?_⟩
      cases which <;> simp [base, atom, Atom.withScript, Atom.setScript, Atom.erase_eq]

/-! ### Texts -/

/-- In front of another source the text comes first, with these tokens, and no letter begins it. -/
def Puts (text : String) (tokens : List Token) : Prop :=
  ∀ back others, Scans back others →
    Scans (text ++ back) (tokens ++ others) ∧ NoLetter (text ++ back).toList

theorem puts_bare (h : Scans text tokens) : Puts (" " ++ text ++ "\n") tokens := by
  intro back others hback
  have hspace : IsGap " " := .inl (by simp [isSpacing])
  have hscans := (h.line hback).gap_append hspace
  simp only [String.append_assoc] at hscans ⊢
  refine ⟨hscans, ?_⟩
  rw [String.toList_append]
  exact noLetter_cons (c := ' ') (by decide) _

theorem puts_braced (h : Scans text tokens) :
    Puts (braced text) (.braceOpen :: (tokens ++ [.braceClose])) := by
  intro back others hback
  refine ⟨by simpa using h.braced hback, ?_⟩
  simp only [braced, String.append_assoc, String.toList_append]
  exact noLetter_cons (c := '\x7b') (by decide) _

theorem scans_symbols (hc : Token.ofChar? c = some (.character c)) (h : Scans back tokens)
    (hletter : NoLetter back.toList) (count : Nat) :
    Scans (symbols c count ++ back) (List.replicate count (.character c) ++ tokens) ∧
      NoLetter (symbols c count ++ back).toList := by
  have hspace : IsGap " " := .inl (by simp [isSpacing])
  induction count with
  | zero => simpa [symbols] using ⟨h, hletter⟩
  | succ count ih =>
      have hscans := (ih.1.character hc).gap_append hspace
      simp only [symbols, String.append_assoc]
      refine ⟨by simpa [List.replicate_succ] using hscans, ?_⟩
      rw [String.toList_append]
      exact noLetter_cons (c := ' ') (by decide) _

theorem scans_around (hc : Token.ofChar? c = some (.character c)) (h : Puts text tokens)
    (before after : Nat) :
    Scans (symbols c before ++ (text ++ symbols c after))
        (List.replicate before (.character c) ++
          (tokens ++ List.replicate after (.character c))) ∧
      NoLetter (symbols c before ++ (text ++ symbols c after)).toList := by
  have hafter := (scans_symbols hc .empty (by simp [NoLetter]) after).1
  rw [String.append_empty, List.append_nil] at hafter
  obtain ⟨hscans, hletter⟩ := h _ _ hafter
  exact scans_symbols hc hscans hletter before

theorem scans_write {slot : Slot} {first? : Option Token} (hfits : slot.Fits first?)
    (hc : Token.ofChar? c = some (.character c)) (h : Puts text (own.map token)) :
    Scans (slot.write c text) ((slot.lexemes c own).map token) := by
  have haround := scans_around hc h
  cases slot with
  | argument name template before after =>
      obtain ⟨hscans, hletter⟩ := haround before after
      have hname := Command.isName_of_find? hfits.1
      simpa [write, lexemes, bare] using hscans.command name hname fun _ => hletter
  | indexed name template before after =>
      obtain ⟨hscans, -⟩ := haround before after
      have hclosed : Scans ("]" ++ _) _ := hscans.character (c := ']') rfl
      have hindexed : Scans ("[" ++ _) _ := (hclosed.character hc).character (c := '[') rfl
      have hname := Command.isName_of_find? hfits.1
      have hscans := hindexed.command name hname fun _ => by
        rw [String.toList_append]
        exact noLetter_cons (c := '[') (by decide) _
      simpa [write, lexemes, bare] using hscans
  | script which =>
      have hscans := (h "" [] .empty).1
      rw [String.append_empty, List.append_nil] at hscans
      have hmarked : Scans (which.mark ++ text) (which.token :: _) :=
        hscans.cons (by cases which <;> exact .character rfl) (by cases which <;> rfl)
      simpa [write, lexemes, bare] using hmarked.character hc

end Slot

/-! ## Both ways to fill a slot -/

namespace Formula

variable {source : String} {options : ReadingOptions}

def TooDeep (source : String) (options : ReadingOptions) : Prop :=
  ∃ place, read source options = .error ⟨.nestingTooDeep, place⟩ ∧
    readAll source options = .error [⟨.nestingTooDeep, place⟩]

theorem read_of_readAll_single {error : ParseError} (h : readAll source options = .error [error]) :
    read source options = .error error := by
  unfold read
  cases hread : readUntilError source options with
  | ok formula =>
      rw [readAll_eq_ok_iff.mpr hread] at h
      cases h
  | error first => simp [h]

theorem readAs_or_tooDeep {lexemes : List Lexeme} {found atom : Atom}
    (hexact : options.fillMissing = false) (hscans : Scans source (lexemes.map token))
    (hrow : Row false lexemes [found]) (herase : found.erase = atom.erase) :
    (atom.nest ≤ options.maxDepth → ReadAs source options [atom]) ∧
      (options.maxDepth < atom.nest → TooDeep source options) := by
  refine ⟨readAs_of_nucleus hexact hscans hrow herase, fun hlt => ?_⟩
  let deep : ReadingOptions := { options with maxDepth := atom.nest }
  obtain ⟨formula, hread, halike⟩ : ReadAs source deep [atom] :=
    readAs_of_nucleus hexact hscans hrow herase (Nat.le_refl _)
  have hnest : nest formula = atom.nest := by
    simpa using nest_eq_of_erase ((alike_iff _ _).mp halike)
  obtain ⟨place, hall⟩ := (read_iff_nest_le source deep formula options.maxDepth hexact hread).2.2
    (by omega)
  exact ⟨place, read_of_readAll_single hall, hall⟩

theorem bare_like_braced {source : String} {options : ReadingOptions} {atom : Atom} {c : Char}
    {kind : AtomKind} (slot : Slot) (hexact : options.fillMissing = false)
    (hread : read source options = .ok [atom]) (hscripts : atom.hasScripts = false)
    (hlimits : WithoutLimits atom (tokens source))
    (hbrace : (tokens source).head? ≠ some .braceOpen)
    (hfits : slot.Fits (tokens source).head?)
    (hc : Literal.kind? c = some kind) (hplain : c ≠ '[' ∧ c ≠ ']') :
    let tree : Formula := [slot.atom (.symbol kind (Literal.nucleus c)) [atom]]
    (ReadAs (slot.write c (" " ++ source ++ "\n")) options tree ∧
        ReadAs (slot.write c (braced source)) options tree) ∨
      (TooDeep (slot.write c (" " ++ source ++ "\n")) options ∧
        TooDeep (slot.write c (braced source)) options) := by
  intro tree
  obtain ⟨lexemes, hslotted⟩ := exists_slotted hexact hread
  rw [hslotted.scans.tokens_eq] at hlimits hbrace hfits
  have hchar : Token.ofChar? c = some (.character c) := by
    rw [Literal.ofChar?_of_kind? hc, if_neg hplain.1, if_neg hplain.2]
  have hbare := hslotted.row.argument hscripts hlimits hbrace
  have hbraced := hslotted.argument false
  let own := bare .braceOpen :: lexemes ++ [bare .braceClose]
  have hfits' : slot.Fits (own.map token).head? := hfits.of_brace
  have hputs : Slot.Puts (braced source) (own.map token) := by
    simpa [own, bare] using Slot.puts_braced hslotted.scans
  obtain ⟨found, hrow, hfound⟩ := Slot.exists_row hc hbare hfits
  obtain ⟨found', hrow', hfound'⟩ := Slot.exists_row hc hbraced hfits'
  have hscans := Slot.scans_write hfits hchar (Slot.puts_bare hslotted.scans)
  have hscans' := Slot.scans_write hfits' hchar hputs
  -- Both texts derive the same tree, so that only the levels of this tree decide.
  have hfirst := readAs_or_tooDeep hexact hscans hrow hfound
  have hsecond := readAs_or_tooDeep hexact hscans' hrow' hfound'
  rcases Nat.lt_or_ge options.maxDepth (slot.atom (.symbol kind (Literal.nucleus c)) [atom]).nest
    with hlt | hle
  · exact .inr ⟨hfirst.2 hlt, hsecond.2 hlt⟩
  · exact .inl ⟨hfirst.1 hle, hsecond.1 hle⟩

theorem fraction_below_root :
    let source := "\\frac12"
    let slot : Slot := .argument "sqrt" ⟨.radical, "√", 1, true⟩ 0 0
    let fraction : Atom :=
      { kind := .fraction true, nucleus := ""
        arguments := [[.symbol .ordinary "1" ⟨5, 6⟩], [.symbol .ordinary "2" ⟨6, 7⟩]]
        span := ⟨0, 7⟩ }
    read source { maxDepth := 1 } = .ok [fraction] ∧
      slot.write 'x' (" " ++ source ++ "\n") = "\\sqrt \\frac12\n" ∧
      slot.write 'x' (braced source) = "\\sqrt\x7b\\frac12\n\x7d" ∧
      ((ReadAs (slot.write 'x' (" " ++ source ++ "\n")) { maxDepth := 1 }
            [slot.atom (.symbol .ordinary "x") [fraction]] ∧
          ReadAs (slot.write 'x' (braced source)) { maxDepth := 1 }
            [slot.atom (.symbol .ordinary "x") [fraction]]) ∨
        (TooDeep (slot.write 'x' (" " ++ source ++ "\n")) { maxDepth := 1 } ∧
          TooDeep (slot.write 'x' (braced source)) { maxDepth := 1 })) := by
  intro source slot fraction
  have hread : read source { maxDepth := 1 } = .ok [fraction] := by decide +kernel
  have hlimits : WithoutLimits fraction (tokens source) := nofun
  have hfirst : (tokens source).head? = some (.command "frac") := by decide +kernel
  refine ⟨hread, by decide +kernel, by decide +kernel, ?_⟩
  have hplain : Literal.kind? 'x' = some .ordinary := rfl
  exact bare_like_braced slot rfl hread rfl hlimits (by simp [hfirst])
    ⟨Command.find?_sqrt, rfl, by simp [hfirst]⟩ hplain (by decide)

end Formula

end TexMath
