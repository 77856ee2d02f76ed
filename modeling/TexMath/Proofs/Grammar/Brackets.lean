import TexMath.Proofs.Grammar.Acceptance
import TexMath.Proofs.Grammar.Segments

/-!
# Closing brackets outside of groups

In the index of a root a closing square bracket ends the index, unless a group is open there.
`Token.bracketOutside` looks for such brackets: it goes through the tokens and keeps the groups that
are open.  The tokens of a row leave the groups as they are, and a row without such brackets may
stand in the index of a root.
-/

namespace TexMath

def Command.takesIndex (name : String) : Bool :=
  match find? name with
  | some (.atom template) => template.optionalArgument
  | _ => false

theorem Command.takesIndex_of_find? {name : String} {template : Template}
    (h : find? name = some (.atom template)) : takesIndex name = template.optionalArgument := by
  rw [takesIndex, h]

namespace Token

/-- Whether a closing bracket is a symbol outside of every group, given the groups that are open in
front of the tokens.  A bracket that is a delimiter or ends an index is no symbol. -/
def bracketOutside : List Closer → List Token → Bool
  | _, [] => false
  | groups, .braceOpen :: rest => bracketOutside (.brace :: groups) rest
  | groups, .environmentBegin _ :: rest => bracketOutside (.cell :: groups) rest
  | groups, .braceClose :: rest => bracketOutside groups.tail rest
  | groups, .environmentEnd _ :: rest => bracketOutside groups.tail rest
  | groups, .bracketClose :: rest =>
      match groups with
      | [] => true
      | .bracket :: outer => bracketOutside outer rest
      | _ => bracketOutside groups rest
  | _, [.command _] => false
  | groups, .command name :: next :: rest =>
      if Command.find? name = some .left then bracketOutside (.right :: groups) rest
      else if Command.find? name = some .right then bracketOutside groups.tail rest
      else if Command.takesIndex name && next == .bracketOpen then
        bracketOutside (.bracket :: groups) rest
      else bracketOutside groups (next :: rest)
  | groups, _ :: rest => bracketOutside groups rest
termination_by structural _ tokens => tokens

/-! ## One token -/

section

variable {groups : List Closer} {name : String} {rest : List Token} {template : Template}

theorem bracketOutside_bracketClose {closer : Closer} (hcloser : closer ≠ .bracket) :
    bracketOutside (closer :: groups) (.bracketClose :: rest) =
      bracketOutside (closer :: groups) rest := by
  cases closer <;> first | rfl | exact absurd rfl hcloser

theorem bracketOutside_left (hfind : Command.find? name = some .left) (delimiter : Token) :
    bracketOutside groups (.command name :: delimiter :: rest) =
      bracketOutside (.right :: groups) rest := by
  rw [bracketOutside, if_pos hfind]

theorem bracketOutside_right (delimiter : Token) :
    bracketOutside groups (.command "right" :: delimiter :: rest) =
      bracketOutside groups.tail rest := by
  simp [bracketOutside, Command.find?_right]

theorem bracketOutside_index (hfind : Command.find? name = some (.atom template))
    (hindex : template.optionalArgument = true) :
    bracketOutside groups (.command name :: .bracketOpen :: rest) =
      bracketOutside (.bracket :: groups) rest := by
  simp [bracketOutside, Command.takesIndex, hfind, hindex]

theorem bracketOutside_command {command : Command} (hfind : Command.find? name = some command)
    (hleft : command ≠ .left) (hright : command ≠ .right)
    (hindex : Command.takesIndex name = true → rest.head? ≠ some .bracketOpen) :
    bracketOutside groups (.command name :: rest) = bracketOutside groups rest := by
  cases rest with
  | nil => rfl
  | cons next rest =>
      have hnext : (Command.takesIndex name && next == .bracketOpen) = false := by simp_all
      simp [bracketOutside, hfind, hleft, hright, hnext]

end

/-- The groups are the same behind the tokens as in front of them, and no bracket is found. -/
def Passes (groups : List Closer) (tokens : List Token) : Prop :=
  ∀ rest, bracketOutside groups (tokens ++ rest) = bracketOutside groups rest

namespace Passes

variable {groups : List Closer} {tokens others : List Token}

theorem nil : Passes groups [] := fun _ => rfl

theorem append (h : Passes groups tokens) (hothers : Passes groups others) :
    Passes groups (tokens ++ others) := fun rest => by
  rw [List.append_assoc, h, hothers]

theorem mark {token : Token} {which : Script} (h : token.script? = some which) :
    Passes groups [token] := by
  cases token <;> first | exact fun _ => rfl | cases h

theorem braces (h : Passes (.brace :: groups) tokens) :
    Passes groups (.braceOpen :: (tokens ++ [.braceClose])) := fun rest => by
  rw [List.cons_append, bracketOutside, List.append_assoc, h]
  rfl

theorem environment (h : Passes (.cell :: groups) tokens) (first last : Environment) :
    Passes groups (.environmentBegin first :: (tokens ++ [.environmentEnd last])) := fun rest => by
  rw [List.cons_append, bracketOutside, List.append_assoc, h]
  rfl

theorem fenced {name : String} (hfind : Command.find? name = some .left)
    (h : Passes (.right :: groups) tokens) (left right : Token) :
    Passes groups (.command name :: left :: (tokens ++ [.command "right", right])) := fun rest => by
  rw [List.cons_append, List.cons_append, bracketOutside_left hfind, List.append_assoc, h]
  exact bracketOutside_right right

theorem index {name : String} {template : Template}
    (hfind : Command.find? name = some (.atom template)) (hindex : template.optionalArgument = true)
    (h : Passes (.bracket :: groups) tokens) :
    Passes groups (.command name :: .bracketOpen :: (tokens ++ [.bracketClose])) := fun rest => by
  rw [List.cons_append, List.cons_append, bracketOutside_index hfind hindex, List.append_assoc, h]
  rfl

theorem directive {name : String} {command : Command} (hfind : Command.find? name = some command)
    (hcommand : command = .newRow ∨ ∃ value, command = .limits value) :
    Passes groups [.command name] := fun rest => by
  obtain rfl | ⟨value, rfl⟩ := hcommand <;>
    exact bracketOutside_command hfind nofun nofun (by simp [Command.takesIndex, hfind])

end Passes

end Token

namespace Grammar

open Lexeme Token

/-- Where a closing bracket is no symbol outside of every group: in the index of a root, in which no
row has such a symbol, and in a group that a bracket does not end. -/
def Shut (inIndex : Bool) (groups : List Closer) : Prop :=
  inIndex = true ∨ ∃ closer outer, groups = closer :: outer ∧ closer ≠ .bracket

theorem shut_cons {inIndex : Bool} {groups : List Closer} (closer : Closer)
    (hcloser : closer ≠ .bracket := by decide) : Shut inIndex (closer :: groups) :=
  .inr ⟨closer, groups, rfl, hcloser⟩

theorem Arguments.exists_cons {inIndex : Bool} {lexemes : List Lexeme} {contents : List Formula}
    (h : Arguments inIndex lexemes contents) (hne : contents.length ≠ 0) :
    ∃ lexeme rest, lexemes = lexeme :: rest := by
  cases h with
  | nil => exact absurd rfl hne
  | cons hargument _ =>
      obtain ⟨lexeme, rest, rfl⟩ := hargument.exists_cons
      exact ⟨lexeme, _, rfl⟩

theorem Arguments.bracketOutside_eq {inIndex : Bool} {lexemes : List Lexeme} {name : String}
    {template : Template} {contents : List Formula} (h : Arguments inIndex lexemes contents)
    (hfind : Command.find? name = some (.atom template))
    (hnext : template.optionalArgument = true → ∀ next ∈ lexemes.head?, next.token ≠ .bracketOpen)
    (hlength : contents.length = template.arguments) (groups : List Closer) (rest : List Token) :
    bracketOutside groups (.command name :: (lexemes.map token ++ rest)) =
      bracketOutside groups (lexemes.map token ++ rest) := by
  refine bracketOutside_command hfind nofun nofun fun htakes => ?_
  rw [Command.takesIndex_of_find? hfind] at htakes
  have hradical := (Command.optionalArgument_of_find? hfind).mp htakes
  rw [Command.arguments_of_find? hfind, hradical] at hlength
  obtain ⟨first, others, rfl⟩ := h.exists_cons (by rw [hlength]; decide)
  simpa using hnext htakes

theorem Limits.passes {atom operator : Atom} {lexemes : List Lexeme}
    (h : Limits atom lexemes operator) (groups : List Closer) :
    Passes groups (lexemes.map token) := by
  induction h with
  | nil => exact .nil
  | cons _ _ htoken hfind _ ih =>
      rw [List.map_cons, htoken]
      exact (Passes.directive hfind (.inr ⟨_, rfl⟩)).append ih

mutual

theorem Row.passes {inIndex : Bool} {groups : List Closer} {lexemes : List Lexeme}
    {formula : Formula} (hshut : Shut inIndex groups) :
    Row inIndex lexemes formula → Passes groups (lexemes.map token)
  | .plain hitems => hitems.passes hshut
  | .scripted hscripts hitems => by
      rw [List.map_append]
      exact (hscripts.passes hshut).append (hitems.passes hshut)

theorem Items.passes {inIndex : Bool} {groups : List Closer} {lexemes : List Lexeme}
    {formula : Formula} (hshut : Shut inIndex groups) :
    Items inIndex lexemes formula → Passes groups (lexemes.map token)
  | .nil => .nil
  | .cons hnucleus hlimits hscripts hitems => by
      simp only [List.map_append]
      exact (((hnucleus.passes hshut).append (hlimits.passes groups)).append
        (hscripts.passes hshut)).append (hitems.passes hshut)

theorem Scripts.passes {inIndex : Bool} {groups : List Closer} {lexemes : List Lexeme}
    {atom result : Atom} (hshut : Shut inIndex groups) :
    Scripts inIndex atom lexemes result → Passes groups (lexemes.map token)
  | .nil _ => .nil
  | .cons hmark _ _ hargument hrest => by
      rw [List.map_append]
      have hmarked := (Passes.mark hmark).append (hargument.passes hshut)
      exact hmarked.append (hrest.passes hshut)

theorem Argument.passes {inIndex : Bool} {groups : List Closer} {lexemes : List Lexeme}
    {content : Formula} (hshut : Shut inIndex groups) :
    Argument inIndex lexemes content → Passes groups (lexemes.map token)
  | .braced hopened hrow hclosed => by
      simpa [hopened, hclosed] using (hrow.passes (shut_cons .brace)).braces
  | .bare _ hnucleus => hnucleus.passes hshut

theorem Arguments.passes {inIndex : Bool} {groups : List Closer} {lexemes : List Lexeme}
    {contents : List Formula} (hshut : Shut inIndex groups) :
    Arguments inIndex lexemes contents → Passes groups (lexemes.map token)
  | .nil => .nil
  | .cons hargument hrest => by
      rw [List.map_append]
      exact (hargument.passes hshut).append (hrest.passes hshut)

theorem Nucleus.passes {inIndex : Bool} {groups : List Closer} {lexemes : List Lexeme}
    {atom : Atom} (hshut : Shut inIndex groups) :
    Nucleus inIndex lexemes atom → Passes groups (lexemes.map token)
  | .character htoken _ => by
      rw [List.map_singleton, htoken]
      exact fun _ => rfl
  | .bracketOpen htoken => by
      rw [List.map_singleton, htoken]
      exact fun _ => rfl
  | .bracketClose htoken => by
      obtain hindex | ⟨closer, outer, rfl, hcloser⟩ := hshut
      · cases hindex
      · rw [List.map_singleton, htoken]
        exact fun _ => bracketOutside_bracketClose hcloser
  | .group hopened hrow hclosed => by
      simpa [hopened, hclosed] using (hrow.passes (shut_cons .brace)).braces
  | .command htoken hfind hnext harguments hlength => by
      intro rest
      rw [List.map_cons, htoken, List.cons_append,
        harguments.bracketOutside_eq hfind hnext hlength, harguments.passes hshut]
  | .indexed htoken hfind hoptional hopened hrow hclosed harguments hlength => by
      have hindex := hrow.passes (.inl rfl : Shut true (.bracket :: groups))
      have hfront := hindex.index hfind hoptional
      simpa [htoken, hopened, hclosed] using hfront.append (harguments.passes hshut)
  | .fenced htoken hfind hleft hrow hclosed hright => by
      simpa [htoken, hclosed] using (hrow.passes (shut_cons .right)).fenced hfind _ _
  | .table hopened hgrid hclosed => by
      simpa [hopened, hclosed] using (hgrid.passes groups).environment _ _

theorem Grid.passes {environment : Environment} {lexemes : List Lexeme}
    {rows : List (List Formula)} (groups : List Closer) :
    Grid environment lexemes rows → Passes (.cell :: groups) (lexemes.map token)
  | .last hrow => hrow.passes (shut_cons .cell)
  | .column _ hrow hmark hrest => by
      rw [List.map_append, List.map_cons, hmark]
      exact (hrow.passes (shut_cons .cell)).append fun rest => hrest.passes groups rest
  | .row hrow hmark hrest => by
      rw [List.map_append, List.map_cons, hmark]
      have hmarked := (Passes.directive Command.find?_newRow (.inl rfl)).append
        (hrest.passes groups)
      exact (hrow.passes (shut_cons .cell)).append hmarked

end

/-! ## Rows for the index of a root

What may stand in an index passes with no group open, so that the search goes on behind it. -/

mutual

theorem Row.in_index {inIndex : Bool} {lexemes : List Lexeme} {formula : Formula}
    {rest : List Token}
    (hclear : bracketOutside [] (lexemes.map token ++ rest) = false) :
    Row inIndex lexemes formula → Row true lexemes formula
  | .plain hitems => .plain (hitems.in_index hclear)
  | .scripted hscripts hitems => by
      rw [List.map_append, List.append_assoc] at hclear
      have hscripts := hscripts.in_index hclear
      rw [hscripts.passes (.inl rfl)] at hclear
      exact .scripted hscripts (hitems.in_index hclear)

theorem Items.in_index {inIndex : Bool} {lexemes : List Lexeme} {formula : Formula}
    {rest : List Token}
    (hclear : bracketOutside [] (lexemes.map token ++ rest) = false) :
    Items inIndex lexemes formula → Items true lexemes formula
  | .nil => .nil
  | .cons hnucleus hlimits hscripts hitems => by
      simp only [List.map_append, List.append_assoc] at hclear
      have hnucleus := hnucleus.in_index hclear
      rw [hnucleus.passes (.inl rfl), hlimits.passes] at hclear
      have hscripts := hscripts.in_index hclear
      rw [hscripts.passes (.inl rfl)] at hclear
      exact .cons hnucleus hlimits hscripts (hitems.in_index hclear)

theorem Scripts.in_index {inIndex : Bool} {lexemes : List Lexeme} {atom result : Atom}
    {rest : List Token}
    (hclear : bracketOutside [] (lexemes.map token ++ rest) = false) :
    Scripts inIndex atom lexemes result → Scripts true atom lexemes result
  | .nil atom => .nil atom
  | .cons hmark haccepts hfree hargument hrest => by
      rw [List.map_append, List.map_cons, List.append_assoc, List.cons_append,
        ← List.singleton_append, Passes.mark hmark] at hclear
      have hargument := hargument.in_index hclear
      rw [hargument.passes (.inl rfl)] at hclear
      exact .cons hmark haccepts hfree hargument (hrest.in_index hclear)

theorem Argument.in_index {inIndex : Bool} {lexemes : List Lexeme} {content : Formula}
    {rest : List Token}
    (hclear : bracketOutside [] (lexemes.map token ++ rest) = false) :
    Argument inIndex lexemes content → Argument true lexemes content
  | .braced hopened hrow hclosed => .braced hopened hrow hclosed
  | .bare hbrace hnucleus => .bare hbrace (hnucleus.in_index hclear)

theorem Arguments.in_index {inIndex : Bool} {lexemes : List Lexeme} {contents : List Formula}
    {rest : List Token}
    (hclear : bracketOutside [] (lexemes.map token ++ rest) = false) :
    Arguments inIndex lexemes contents → Arguments true lexemes contents
  | .nil => .nil
  | .cons hargument hrest => by
      rw [List.map_append, List.append_assoc] at hclear
      have hargument := hargument.in_index hclear
      rw [hargument.passes (.inl rfl)] at hclear
      exact .cons hargument (hrest.in_index hclear)

theorem Nucleus.in_index {inIndex : Bool} {lexemes : List Lexeme} {atom : Atom} {rest : List Token}
    (hclear : bracketOutside [] (lexemes.map token ++ rest) = false) :
    Nucleus inIndex lexemes atom → Nucleus true lexemes atom
  | .character htoken hkind => .character htoken hkind
  | .bracketOpen htoken => .bracketOpen htoken
  | .bracketClose htoken => by
      rw [List.map_singleton, htoken] at hclear
      cases hclear
  | .group hopened hrow hclosed => .group hopened hrow hclosed
  | .command htoken hfind hnext harguments hlength => by
      rw [List.map_cons, htoken, List.cons_append,
        harguments.bracketOutside_eq hfind hnext hlength] at hclear
      exact .command htoken hfind hnext (harguments.in_index hclear) hlength
  | @Nucleus.indexed _ _ _ _ _ _ _ others _ _ htoken hfind hoptional hopened hrow hclosed
      harguments hlength => by
      have hindex := hrow.passes (.inl rfl : Shut true [.bracket])
      have hclear : bracketOutside [] (others.map token ++ rest) = false := by
        rw [← hindex.index hfind hoptional, ← hclear]
        simp [htoken, hopened, hclosed]
      have harguments := harguments.in_index hclear
      exact .indexed htoken hfind hoptional hopened hrow hclosed harguments hlength
  | .fenced htoken hfind hleft hrow hclosed hright =>
      .fenced htoken hfind hleft hrow hclosed hright
  | .table hopened hgrid hclosed => .table hopened hgrid hclosed

end

theorem row_in_index_iff {lexemes : List Lexeme} {formula : Formula} :
    Row true lexemes formula ↔
      Row false lexemes formula ∧ bracketOutside [] (lexemes.map token) = false := by
  constructor
  · intro hindex
    have hpasses := hindex.passes (.inl rfl : Shut true []) []
    rw [List.append_nil] at hpasses
    exact ⟨hindex.outside, hpasses⟩
  · rintro ⟨hrow, hclear⟩
    rw [← List.append_nil (lexemes.map token)] at hclear
    exact hrow.in_index hclear

end Grammar

end TexMath
