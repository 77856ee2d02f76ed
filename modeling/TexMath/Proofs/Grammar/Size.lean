import TexMath.Proofs.Formula.Nesting
import TexMath.Proofs.Symbol.Command
import TexMath.Proofs.Symbol.Literal

/-!
# Nesting and the number of lexemes

Every level of nesting costs a lexeme: what lexemes derive is never nested deeper than their number.
-/

namespace TexMath.Grammar

variable {inIndex : Bool} {lexemes : List Lexeme}

theorem Limits.nest_eq {atom operator : Atom} (h : Limits atom lexemes operator) :
    operator.nest = atom.nest := by
  induction h with
  | nil => rfl
  | cons hkind _ _ _ _ ih => rw [ih, Atom.nest_withLimits hkind]

mutual

theorem Row.nest_le {inIndex : Bool} {lexemes : List Lexeme} {formula : Formula} :
    Row inIndex lexemes formula → Formula.nest formula ≤ lexemes.length
  | .plain hitems => hitems.nest_le
  | .scripted hscripts hitems => by
      have hatom := hscripts.nest_le
      have hrest := hitems.nest_le
      rw [Atom.scriptBase, Atom.nest_symbol (by simp)] at hatom
      simp only [Formula.nest_cons, List.length_append] at hatom ⊢
      omega

theorem Items.nest_le {inIndex : Bool} {lexemes : List Lexeme} {formula : Formula} :
    Items inIndex lexemes formula → Formula.nest formula ≤ lexemes.length
  | .nil => Nat.le_refl 0
  | .cons hnucleus hlimits hscripts hitems => by
      have hatom := hnucleus.nest_lt
      have hoperator := hlimits.nest_eq
      have hresult := hscripts.nest_le
      have hrest := hitems.nest_le
      simp only [Formula.nest_cons, List.length_append]
      omega

theorem Scripts.nest_le {inIndex : Bool} {lexemes : List Lexeme} {atom result : Atom} :
    Scripts inIndex atom lexemes result → result.nest ≤ max atom.nest lexemes.length
  | .nil atom => Nat.le_max_left ..
  | .cons hmark haccepts hfree hargument hrest => by
      have hcontent := hargument.nest_lt
      have hresult := hrest.nest_le
      rw [Atom.nest_withScript hfree] at hresult
      simp only [List.length_append, List.length_cons]
      omega

theorem Argument.nest_lt {inIndex : Bool} {lexemes : List Lexeme} {content : Formula} :
    Argument inIndex lexemes content → Formula.nest content < lexemes.length
  | .braced _ hrow _ => by
      have hcontent := hrow.nest_le
      simp only [List.length_append, List.length_cons]
      omega
  | .bare _ hnucleus => by
      have hatom := hnucleus.nest_lt
      simpa using hatom

theorem Arguments.nest_lt {inIndex : Bool} {lexemes : List Lexeme} {contents : List Formula} :
    Arguments inIndex lexemes contents →
      ∀ content ∈ contents, Formula.nest content < lexemes.length
  | .nil => by simp
  | .cons hargument hrest => by
      have hfirst := hargument.nest_lt
      have hothers := hrest.nest_lt
      rw [List.length_append, List.forall_mem_cons]
      refine ⟨by omega, fun content hcontent => ?_⟩
      have := hothers content hcontent
      omega

theorem Nucleus.nest_lt {inIndex : Bool} {lexemes : List Lexeme} {atom : Atom} :
    Nucleus inIndex lexemes atom → atom.nest < lexemes.length
  | .character _ hkind => by simp [Atom.nest_symbol (Literal.kind_ne_table hkind)]
  | .bracketOpen _ => by simp [Atom.nest_symbol]
  | .bracketClose _ => by simp [Atom.nest_symbol]
  | .group _ hrow _ => by
      have hcontent := Nat.lt_succ_of_le hrow.nest_le
      exact Nat.lt_of_le_of_lt (Atom.nest_group_le hcontent) (by simp)
  | .command _ hfind _ harguments _ =>
      Nat.lt_of_le_of_lt (Atom.nest_le_of_find? hfind harguments.nest_lt) (by simp)
  | @Nucleus.indexed _ _ _ _ _ _ lexemes rest index arguments _ hfind _ _ hrow _ harguments _ => by
      have hindex := hrow.nest_le
      have hcontents := harguments.nest_lt
      have hall : ∀ content ∈ arguments ++ [index],
          Formula.nest content < lexemes.length + rest.length + 1 := by
        intro content hcontent
        obtain hcontent | rfl : content ∈ arguments ∨ content = index := by
          simpa using hcontent
        · have := hcontents content hcontent
          omega
        · omega
      refine Nat.lt_of_le_of_lt (Atom.nest_le_of_find? hfind hall) ?_
      simp only [List.length_append, List.length_cons]
      omega
  | .fenced _ _ _ hrow _ _ => by
      have hcontent := Nat.lt_succ_of_le hrow.nest_le
      exact Nat.lt_of_le_of_lt (Atom.nest_group_le hcontent) (by simp)
  | .table _ hgrid _ => by
      have hcells := hgrid.nest_le
      refine Nat.lt_of_le_of_lt (Atom.nest_table_le (Nat.succ_pos _) fun row hrow cell hcell =>
        Nat.lt_succ_of_le (hcells row (mem_of_mem_dropEmptyRow hrow) cell hcell)) (by simp)

theorem Grid.nest_le {environment : Environment} {lexemes : List Lexeme}
    {rows : List (List Formula)} :
    Grid environment lexemes rows →
      ∀ row ∈ rows, ∀ cell ∈ row, Formula.nest cell ≤ lexemes.length
  | .last hrow => by simpa using hrow.nest_le
  | @Grid.column _ front rest mark _ cells rows _ hrow _ hrest => by
      have hcell := hrow.nest_le
      have hothers := hrest.nest_le
      have hle : rest.length ≤ (front ++ mark :: rest).length := by simp; omega
      simp only [List.forall_mem_cons] at hothers ⊢
      refine ⟨⟨by simp; omega, fun cell hcell => Nat.le_trans (hothers.1 cell hcell) hle⟩,
        fun row hrow cell hcell => Nat.le_trans (hothers.2 row hrow cell hcell) hle⟩
  | @Grid.row _ front rest mark _ cells rows hrow _ hrest => by
      have hcell := hrow.nest_le
      have hothers := hrest.nest_le
      have hle : rest.length ≤ (front ++ mark :: rest).length := by simp; omega
      rw [List.forall_mem_cons]
      refine ⟨?_, fun row hrow cell hcell => Nat.le_trans (hothers row hrow cell hcell) hle⟩
      simp only [List.mem_singleton, forall_eq, List.length_append]
      omega

end

end TexMath.Grammar
