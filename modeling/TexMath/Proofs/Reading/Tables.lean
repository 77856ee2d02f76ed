import TexMath.Proofs.Reading.Slots
import TexMath.Proofs.Reading.Unmatched

/-!
# Formulas in the cells of a table

Sources that are read alone, laid out in rows and columns as the body of an environment, are read as
the cells of a table.  `Grammar.Laid` relates the lexemes of a body to its cells whether or not the
environment has columns.  Where it has none, each mark between columns is an error, and the reading
goes on with the next cell of the row.
-/

namespace TexMath

open Grammar Lexeme Reading Text

/-! ## The text of a table -/

namespace Text

def tableRow (cells : List String) : String := "&".intercalate (cells.map (· ++ "\n"))

def table (environment : Environment) (rows : List (List String)) : String :=
  environment.opening ++ ("\\\\".intercalate (rows.map tableRow) ++ environment.ending)

def rowMarks : List String → List Nat
  | cell :: next :: cells =>
      (cell.utf8ByteSize + 1) :: (rowMarks (next :: cells)).map (· + (cell.utf8ByteSize + 2))
  | _ => []

def bodyMarks : List (List String) → List Nat
  | [] => []
  | row :: rows => rowMarks row ++ (bodyMarks rows).map (· + ((tableRow row).utf8ByteSize + 2))

def tableMarks (environment : Environment) (rows : List (List String)) : List Nat :=
  (bodyMarks rows).map (· + environment.opening.utf8ByteSize)

theorem tableRow_single (cell : String) : tableRow [cell] = cell ++ "\n" :=
  String.intercalate_singleton

theorem tableRow_cons (cell next : String) (cells : List String) :
    tableRow (cell :: next :: cells) = cell ++ "\n" ++ ("&" ++ tableRow (next :: cells)) := by
  rw [tableRow, List.map_cons, List.map_cons, String.intercalate_cons_cons, String.append_assoc]
  rfl

theorem size_line (cell : String) : (cell ++ "\n").utf8ByteSize = cell.utf8ByteSize + 1 :=
  String.utf8ByteSize_append

theorem size_tableRow_cons (cell next : String) (cells : List String) :
    (tableRow (cell :: next :: cells)).utf8ByteSize =
      (tableRow (next :: cells)).utf8ByteSize + (cell.utf8ByteSize + 2) := by
  have hmark : ("&" ++ tableRow (next :: cells)).utf8ByteSize = 1 + _ := String.utf8ByteSize_append
  rw [tableRow_cons, String.utf8ByteSize_append, size_line, hmark]
  omega

theorem map_add_add (first second : Nat) (marks : List Nat) :
    (marks.map (· + first)).map (· + second) = marks.map (· + (first + second)) := by
  simp only [List.map_map, Function.comp_def, Nat.add_assoc]

theorem rowMarks_eq_nil {cells : List String} (h : cells.length = 1) : rowMarks cells = [] := by
  obtain ⟨cell, rfl⟩ := List.length_eq_one_iff.mp h
  rfl

theorem bodyMarks_eq_nil {rows : List (List String)} (h : ∀ row ∈ rows, row.length = 1) :
    bodyMarks rows = [] := by
  induction rows with
  | nil => rfl
  | cons row rows ih =>
      obtain ⟨hrow, hrows⟩ := List.forall_mem_cons.mp h
      rw [bodyMarks, rowMarks_eq_nil hrow, ih hrows]
      rfl

theorem bodyMarks_ne_nil {rows : List (List String)} (h : ∃ row ∈ rows, 1 < row.length) :
    bodyMarks rows ≠ [] := by
  induction rows with
  | nil => obtain ⟨_, hmem, -⟩ := h; cases hmem
  | cons row rows ih =>
      obtain ⟨wide, hmem, hwide⟩ := h
      rw [bodyMarks]
      rcases List.mem_cons.mp hmem with rfl | hmem
      · match wide, hwide with
        | _ :: _ :: _, _ => exact List.cons_ne_nil _ _
      · simp [ih ⟨wide, hmem, hwide⟩]

end Text

/-! ## The lexemes of a table -/

variable {environment : Environment} {context : Context} {s s' : State} {closed : Lexeme}
  {lexemes : List Lexeme} {rows : List (List Formula)} {marks : List Span} {bound : Nat}

namespace Grammar

/-- The cells in a body of lexemes, row by row, and the marks between its columns. -/
inductive Laid : List Lexeme → List (List Formula) → List Span → Prop
  | last {lexemes : List Lexeme} {cell : Formula} :
      Derives (lexemes.map token) cell → Laid lexemes [[cell]] []
  | column {lexemes rest : List Lexeme} {mark : Lexeme} {cell : Formula} {cells : List Formula}
      {rows : List (List Formula)} {marks : List Span} :
      Derives (lexemes.map token) cell → mark.token = .columnMark →
      Laid rest (cells :: rows) marks →
      Laid (lexemes ++ mark :: rest) ((cell :: cells) :: rows) (mark.span :: marks)
  | row {lexemes rest : List Lexeme} {mark : Lexeme} {cell : Formula} {cells : List Formula}
      {rows : List (List Formula)} {marks : List Span} :
      Derives (lexemes.map token) cell → mark.token = .command "\\" →
      Laid rest (cells :: rows) marks →
      Laid (lexemes ++ mark :: rest) ([cell] :: cells :: rows) marks

namespace Laid

theorem shift (h : Laid lexemes rows marks) (count : Nat) :
    Laid (lexemes.map (Lexeme.shift count)) rows (marks.map (Span.shift count)) := by
  have hderives : ∀ {lexemes : List Lexeme} {cell : Formula}, Derives (lexemes.map token) cell →
      Derives ((lexemes.map (Lexeme.shift count)).map token) cell := by
    intro lexemes cell hderives
    rwa [List.map_map]
  induction h with
  | last hcell => exact .last (hderives hcell)
  | column hcell hmark _ ih =>
      rw [List.map_append, List.map_cons]
      exact .column (hderives hcell) hmark ih
  | row hcell hmark _ ih =>
      rw [List.map_append, List.map_cons]
      exact .row (hderives hcell) hmark ih

theorem marks_sublist (h : Laid lexemes rows marks) : marks.Sublist (lexemes.map Lexeme.span) := by
  induction h with
  | last _ => exact List.nil_sublist _
  | column _ _ _ ih =>
      rw [List.map_append]
      exact (ih.cons_cons _).trans (List.sublist_append_right _ _)
  | row _ _ _ ih =>
      rw [List.map_append]
      exact (ih.cons _).trans (List.sublist_append_right _ _)

theorem grid (h : Laid lexemes rows marks)
    (hcolumns : environment.allowsColumns = true ∨ marks = []) :
    ∃ found, Grid environment lexemes found ∧
      found.map (List.map Formula.erase) = rows.map (List.map Formula.erase) := by
  induction h with
  | last hcell =>
      obtain ⟨cell, hrow, herase⟩ := derives_iff.mp hcell
      exact ⟨[[cell]], .last hrow, by simp [herase]⟩
  | column hcell hmark _ ih =>
      have hallows : environment.allowsColumns = true := hcolumns.resolve_right (by simp)
      obtain ⟨cell, hrow, herase⟩ := derives_iff.mp hcell
      obtain ⟨found, hgrid, hfound⟩ := ih (.inl hallows)
      obtain ⟨cells, others, rfl, hcells, hothers⟩ := List.map_eq_cons_iff.mp hfound
      exact ⟨(cell :: cells) :: others, .column hallows hrow hmark hgrid,
        by simp [herase, hcells, hothers]⟩
  | row hcell hmark _ ih =>
      obtain ⟨cell, hrow, herase⟩ := derives_iff.mp hcell
      obtain ⟨found, hgrid, hfound⟩ := ih hcolumns
      obtain ⟨cells, others, rfl, hcells, hothers⟩ := List.map_eq_cons_iff.mp hfound
      exact ⟨[cell] :: cells :: others, .row hrow hmark hgrid, by simp [herase, hcells, hothers]⟩

end Laid

end Grammar

/-! ## Marks between columns where there are none -/

theorem State.Takes.reporting (h : s.Takes lexemes s') (errors : List ParseError) :
    State.Takes { s with reported := errors } lexemes { s' with reported := errors } :=
  ⟨h.rest, h.lastEnd, rfl⟩

def strayColumn (span : Span) : ParseError := ⟨.misplacedSeparator .column, span⟩

theorem Readers.cell_of_derives {cell : Formula} {mark : Lexeme} {rest : List Lexeme}
    (hderives : Derives (lexemes.map token) cell) (opened : Span) (hbound : s.rest.length < bound)
    (hcloses : (context.inside .cell).closes mark.token = true)
    (htakes : s.Takes (lexemes ++ mark :: rest) s') (hroom : Formula.nest cell < context.room) :
    ∃ found middle, middle.Takes (mark :: rest) s' ∧ middle.rest.length ≤ s.rest.length ∧
      context.inGroup .cell opened (fun inside => (upTo bound).row inside []) s =
        .ok found middle := by
  obtain ⟨found, hrow, herase⟩ := derives_iff.mp hderives
  have hroom' : Formula.nest found < context.room := by
    rwa [Formula.nest_eq_of_erase herase]
  exact ⟨found, (accepts_upTo bound).cell opened hbound hrow hcloses htakes hroom'⟩

theorem Readers.gridStep_reports (h : Laid lexemes rows marks)
    (hcolumns : environment.allowsColumns = false) (hmode : context.mode = .collect)
    (hclosed : closed.token = .environmentEnd environment)
    (hroom : ∀ row ∈ rows, ∀ cell ∈ row, Formula.nest cell < context.room) (opened : Span)
    (full : List (List Formula)) (cells : List Formula) (hbound : s.rest.length < bound)
    (htakes : s.Takes (lexemes ++ [closed]) s') :
    ∃ found t, (upTo bound).gridStep context environment opened full cells s = .ok found t ∧
      t.rest = s'.rest ∧ t.reported = (marks.map strayColumn).reverse ++ s.reported := by
  induction h generalizing bound s s' full cells with
  | @last _ cell hcell =>
      have hcloses : (context.inside .cell).closes closed.token = true := by
        rw [hclosed]; simp [Context.closes, Context.inside]
      obtain ⟨found, middle, hmark, -, hread⟩ := cell_of_derives hcell opened hbound hcloses htakes
        (hroom [cell] (by simp) cell (by simp))
      refine ⟨closeGrid full (found :: cells), s', ?_, rfl, htakes.reported⟩
      unfold Readers.gridStep
      rw [bind_of_ok hread, bind_of_ok (hmark.peek context), hclosed]
      dsimp only
      rw [bind_of_ok (State.advance_apply middle closed), ← hmark.eq_advanced,
        if_neg (not_not_intro rfl)]
      rfl
  | @column _ _ mark cell more others _ hcell hmark _ ih =>
      rw [List.append_assoc, List.cons_append] at htakes
      have hcloses : (context.inside .cell).closes mark.token = true := by
        rw [hmark]; simp [Context.closes, Context.inside]
      obtain ⟨found, middle, hmiddle, hlength, hread⟩ := cell_of_derives hcell opened hbound hcloses
        htakes (hroom (cell :: more) (by simp) cell (by simp))
      have hshorter := hmiddle.shorter
      obtain ⟨lower, rfl⟩ : ∃ lower, bound = lower + 1 := ⟨bound - 1, by omega⟩
      have hroom : ∀ row ∈ more :: others, ∀ cell ∈ row, Formula.nest cell < context.room := by
        simp only [List.forall_mem_cons] at hroom ⊢
        exact ⟨hroom.1.2, hroom.2⟩
      let errors := strayColumn mark.span :: middle.reported
      obtain ⟨grid, t, hgrid, hrest, hreported⟩ := @ih
        { middle.advanced mark with reported := errors } _ lower hroom full (found :: cells)
        (show (middle.advanced mark).rest.length < lower by omega)
        (hmiddle.tail.reporting errors)
      refine ⟨grid, t, ?_, hrest, ?_⟩
      · unfold Readers.gridStep
        rw [bind_of_ok hread, bind_of_ok (hmiddle.peek context), hmark]
        dsimp only
        rw [bind_of_ok (State.advance_apply middle mark), hcolumns, if_pos (by decide),
          bind_of_ok (Context.report_collect hmode _ _)]
        exact hgrid
      · rw [hreported, ← htakes.reported, hmiddle.reported]
        simp [errors]
  | @row _ _ mark cell more _ _ hcell hmark _ ih =>
      rw [List.append_assoc, List.cons_append] at htakes
      have hcloses : (context.inside .cell).closes mark.token = true := by
        rw [hmark]; simp [Context.closes, Context.inside]
      obtain ⟨found, middle, hmiddle, hlength, hread⟩ := cell_of_derives hcell opened hbound hcloses
        htakes (hroom [cell] (by simp) cell (by simp))
      have hshorter := hmiddle.shorter
      obtain ⟨lower, rfl⟩ : ∃ lower, bound = lower + 1 := ⟨bound - 1, by omega⟩
      obtain ⟨grid, t, hgrid, hrest, hreported⟩ := ih
        (fun row hrow => hroom row (List.mem_cons_of_mem _ hrow))
        ((found :: cells).reverse :: full) [] (show _ < lower by omega) hmiddle.tail
      refine ⟨grid, t, ?_, hrest, ?_⟩
      · unfold Readers.gridStep
        rw [bind_of_ok hread, bind_of_ok (hmiddle.peek context), hmark]
        dsimp only
        rw [if_pos rfl, bind_of_ok (State.advance_apply middle mark)]
        exact hgrid
      · rw [hreported, ← htakes.reported, hmiddle.reported]
        rfl

/-! ## Sources in cells -/

theorem significantItems_above {cell back : String} {options : ReadingOptions} {formula : Formula}
    {others : List Lexeme} (hexact : options.fillMissing = false)
    (hread : Formula.read cell options = .ok formula)
    (hback : significantItems back = others.map .lexeme) :
    ∃ lexemes : List Lexeme, Derives (lexemes.map token) formula ∧
      significantItems (cell ++ "\n" ++ back) =
        (lexemes ++ others.map (Lexeme.shift (cell.utf8ByteSize + 1))).map .lexeme := by
  obtain ⟨-, -, lexemes, hitems, hrow⟩ :=
    (Formula.readUntilError_eq_ok_iff hexact).mp (Formula.read_eq_ok_iff.mp hread)
  refine ⟨lexemes, derives_iff.mpr ⟨formula, hrow, rfl⟩, ?_⟩
  have hclear := significantItems_eq_lexemes_iff.mp ⟨lexemes, hitems⟩
  rw [significantItems_line hclear, hitems, hback, map_shift_lexemes, List.map_append]

def columnSpan (mark : Nat) : Span := ⟨mark, mark + 1⟩

theorem map_shift_columnSpan (count : Nat) (marks : List Nat) :
    (marks.map columnSpan).map (Span.shift count) = (marks.map (· + count)).map columnSpan := by
  simp [columnSpan, Span.shift, Nat.add_right_comm]

/-- The text holds the cells of a table, with marks between columns at the offsets, and its end. -/
def HasBody (environment : Environment) (text : String) (rows : List (List Formula))
    (marks : List Nat) : Prop :=
  ∃ lexemes closed, significantItems text = (lexemes ++ [closed]).map .lexeme ∧
    Laid lexemes rows (marks.map columnSpan) ∧ closed.token = .environmentEnd environment

namespace HasBody

variable {options : ReadingOptions} {text cell : String} {formula : Formula} {marks : List Nat}
  {cells : List Formula}

theorem last (hexact : options.fillMissing = false)
    (hread : Formula.read cell options = .ok formula) :
    HasBody environment (cell ++ "\n" ++ environment.ending) [[formula]] [] := by
  have hend : significantItems environment.ending = [_].map .lexeme :=
    significantItems_single (environment.spelling_ending []) rfl
  obtain ⟨lexemes, hderives, hitems⟩ := significantItems_above hexact hread hend
  exact ⟨lexemes, _, hitems, .last hderives, rfl⟩

theorem behind_mark (hexact : options.fillMissing = false)
    (hread : Formula.read cell options = .ok formula) (h : HasBody environment text rows marks)
    {mark : Token} {spelled : String}
    (hspelling : Token.Spelling mark spelled.toList text.toList) (htrivia : mark.isTrivia = false) :
    let start := cell.utf8ByteSize + 1
    let stop := start + spelled.utf8ByteSize
    ∃ (lexemes others : List Lexeme) (closed : Lexeme),
      significantItems (cell ++ "\n" ++ (spelled ++ text)) =
        (lexemes ++ ⟨mark, ⟨start, stop⟩, spelled⟩ :: others ++ [closed]).map .lexeme ∧
      Derives (lexemes.map token) formula ∧
      Laid others rows ((marks.map (· + stop)).map columnSpan) ∧
      closed.token = .environmentEnd environment := by
  intro start stop
  obtain ⟨others, closed, hrest, hlaid, hclosed⟩ := h
  have hback := significantItems_cons hspelling htrivia
  rw [hrest, map_shift_lexemes] at hback
  obtain ⟨lexemes, hderives, hitems⟩ := significantItems_above hexact hread
    (hback.trans (List.map_cons ..).symm)
  have hmarks : ((marks.map columnSpan).map (Span.shift spelled.utf8ByteSize)).map
      (Span.shift start) = (marks.map (· + stop)).map columnSpan := by
    rw [map_shift_columnSpan, map_shift_columnSpan, map_add_add, Nat.add_comm _ start]
  have hmoved := (hlaid.shift spelled.utf8ByteSize).shift start
  rw [hmarks] at hmoved
  have hmark : (⟨mark, ⟨start, stop⟩, spelled⟩ : Lexeme) =
      Lexeme.shift start ⟨mark, ⟨0, spelled.utf8ByteSize⟩, spelled⟩ := by
    rw [Lexeme.shift, Span.shift_of_start]
  refine ⟨lexemes, (others.map (Lexeme.shift spelled.utf8ByteSize)).map (Lexeme.shift start),
    (closed.shift spelled.utf8ByteSize).shift start, ?_, hderives, hmoved, hclosed⟩
  rw [hitems, hmark]
  simp [start]

theorem column (hexact : options.fillMissing = false)
    (hread : Formula.read cell options = .ok formula)
    (h : HasBody environment text (cells :: rows) marks) :
    HasBody environment (cell ++ "\n" ++ ("&" ++ text)) ((formula :: cells) :: rows)
      ((cell.utf8ByteSize + 1) :: marks.map (· + (cell.utf8ByteSize + 2))) := by
  have hspelling : Token.Spelling .columnMark "&".toList text.toList := .character rfl
  obtain ⟨lexemes, others, closed, hitems, hderives, hlaid, hclosed⟩ :=
    h.behind_mark hexact hread hspelling rfl
  exact ⟨_, closed, hitems, .column hderives rfl hlaid, hclosed⟩

theorem row (hexact : options.fillMissing = false)
    (hread : Formula.read cell options = .ok formula)
    (h : HasBody environment text (cells :: rows) marks) :
    HasBody environment (cell ++ "\n" ++ ("\\\\" ++ text)) ([formula] :: cells :: rows)
      (marks.map (· + (cell.utf8ByteSize + 3))) := by
  have hspelling : Token.Spelling (.command "\\") "\\\\".toList text.toList :=
    .command (by decide) fun hword => absurd hword (by decide)
  obtain ⟨lexemes, others, closed, hitems, hderives, hlaid, hclosed⟩ :=
    h.behind_mark hexact hread hspelling rfl
  exact ⟨_, closed, hitems, .row hderives rfl hlaid, hclosed⟩

theorem cells_in_front_of (hexact : options.fillMissing = false) {behind : String}
    {others : List (List Formula)} {marks : List Nat}
    (hlast : ∀ {cell formula}, Formula.read cell options = .ok formula →
      HasBody environment (cell ++ "\n" ++ behind) ([formula] :: others)
        (marks.map (· + (cell.utf8ByteSize + 1)))) {sources : List String} (hne : sources ≠ [])
    (hread : List.Forall₂ (fun source cell => Formula.read source options = .ok cell)
      sources cells) :
    HasBody environment (tableRow sources ++ behind) (cells :: others)
      (rowMarks sources ++ marks.map (· + (tableRow sources).utf8ByteSize)) := by
  induction hread with
  | nil => exact absurd rfl hne
  | @cons source formula sources cells hfirst hrest ih =>
      cases hrest with
      | nil =>
          rw [tableRow_single, size_line]
          exact hlast hfirst
      | @cons next _ sources cells _ _ =>
          have hbody := (ih (List.cons_ne_nil _ _)).column hexact hfirst
          rw [List.map_append, map_add_add, ← size_tableRow_cons] at hbody
          have htext : tableRow (source :: next :: sources) ++ behind =
              source ++ "\n" ++ ("&" ++ (tableRow (next :: sources) ++ behind)) := by
            simp only [tableRow_cons, String.append_assoc]
          rw [htext]
          exact hbody

theorem body (environment : Environment) (hexact : options.fillMissing = false)
    {sources : List (List String)} (hne : sources ≠ []) (hrows : ∀ row ∈ sources, row ≠ [])
    (hread : List.Forall₂ (List.Forall₂ fun source cell => Formula.read source options = .ok cell)
      sources rows) :
    HasBody environment ("\\\\".intercalate (sources.map tableRow) ++ environment.ending) rows
      (bodyMarks sources) := by
  induction hread with
  | nil => exact absurd rfl hne
  | @cons row cells sources rows hfirst hrest ih =>
      obtain ⟨hrow, hrows⟩ := List.forall_mem_cons.mp hrows
      cases hrest with
      | nil =>
          have hbody := @cells_in_front_of environment options cells hexact environment.ending [] []
            (fun hread => last hexact hread) row hrow hfirst
          simpa [bodyMarks] using hbody
      | @cons next more sources others _ _ =>
          have hbody := ih (List.cons_ne_nil _ _) hrows
          have hlast : ∀ {cell formula}, Formula.read cell options = .ok formula →
              HasBody environment (cell ++ "\n" ++ ("\\\\" ++
                ("\\\\".intercalate ((next :: sources).map tableRow) ++ environment.ending)))
                ([formula] :: more :: others)
                (((bodyMarks (next :: sources)).map (· + 2)).map
                  (· + (cell.utf8ByteSize + 1))) := by
            intro cell formula hread
            have hbehind := hbody.row hexact hread
            rwa [map_add_add, Nat.add_comm 2]
          have hwhole := cells_in_front_of hexact hlast hrow hfirst
          rw [map_add_add, Nat.add_comm 2] at hwhole
          have htext : "\\\\".intercalate ((row :: next :: sources).map tableRow) =
              tableRow row ++ "\\\\" ++ "\\\\".intercalate ((next :: sources).map tableRow) := by
            rw [List.map_cons, List.map_cons, String.intercalate_cons_cons]
          rw [htext, bodyMarks, String.append_assoc, String.append_assoc]
          exact hwhole

end HasBody

/-! ## Tables -/

namespace Formula

variable {options : ReadingOptions} {sources : List (List String)}

def openingLexeme (environment : Environment) : Lexeme :=
  ⟨.environmentBegin environment, ⟨0, environment.opening.utf8ByteSize⟩, environment.opening⟩

theorem significantItems_table (environment : Environment) (hexact : options.fillMissing = false)
    (hne : sources ≠ []) (hrows : ∀ row ∈ sources, row ≠ [])
    (hread : List.Forall₂ (List.Forall₂ fun source cell => read source options = .ok cell)
      sources rows) :
    ∃ (lexemes : List Lexeme) (closed : Lexeme),
      significantItems (Text.table environment sources) =
        (openingLexeme environment :: (lexemes ++ [closed])).map .lexeme ∧
      Laid lexemes rows ((tableMarks environment sources).map columnSpan) ∧
      closed.token = .environmentEnd environment := by
  obtain ⟨lexemes, closed, hitems, hlaid, hclosed⟩ :=
    HasBody.body environment hexact hne hrows hread
  have hwhole := significantItems_cons
    (environment.spelling_opening ("\\\\".intercalate (sources.map tableRow) ++
      environment.ending).toList) rfl
  rw [hitems, map_shift_lexemes, List.map_append] at hwhole
  have hmoved := hlaid.shift environment.opening.utf8ByteSize
  rw [map_shift_columnSpan] at hmoved
  exact ⟨_, _, hwhole, hmoved, hclosed⟩

theorem forall_mem_right {α β : Type} {related : α → β → Prop} {holds : β → Prop}
    (himp : ∀ {a b}, related a b → holds b) {as : List α} {bs : List β}
    (h : List.Forall₂ related as bs) : ∀ b ∈ bs, holds b := by
  induction h with
  | nil => simp
  | cons hfirst _ ih => exact List.forall_mem_cons.mpr ⟨himp hfirst, ih⟩

theorem nest_lt_of_read (hexact : options.fillMissing = false)
    (hread : List.Forall₂ (List.Forall₂ fun source cell => read source options = .ok cell)
      sources rows) :
    ∀ row ∈ rows, ∀ cell ∈ row, nest cell < options.maxDepth + 1 := by
  refine forall_mem_right (fun hrow => forall_mem_right (fun hcell => ?_) hrow) hread
  exact Nat.lt_succ_of_le ((readUntilError_eq_ok_iff hexact).mp (read_eq_ok_iff.mp hcell)).2.1

theorem readAs_table (hexact : options.fillMissing = false) (hne : sources ≠ [])
    (hrows : ∀ row ∈ sources, row ≠ [])
    (hread : List.Forall₂ (List.Forall₂ fun source cell => read source options = .ok cell)
      sources rows)
    (hcolumns : environment.allowsColumns = true ∨ ∀ row ∈ sources, row.length = 1) :
    ReadAs (Text.table environment sources) { options with maxDepth := options.maxDepth + 1 }
      [{ kind := .table, nucleus := environment.name, rows := dropEmptyRow rows }] := by
  obtain ⟨lexemes, closed, hitems, hlaid, hclosed⟩ :=
    significantItems_table environment hexact hne hrows hread
  have hmarks : environment.allowsColumns = true ∨
      (tableMarks environment sources).map columnSpan = [] := by
    refine hcolumns.imp_right fun hsingle => ?_
    rw [tableMarks, bodyMarks_eq_nil hsingle]
    rfl
  obtain ⟨found, hgrid, hfound⟩ := hlaid.grid hmarks
  have hdropped : (dropEmptyRow found).map (List.map erase) =
      (dropEmptyRow rows).map (List.map erase) := by
    rw [map_dropEmptyRow, map_dropEmptyRow, hfound]
  have hrow := (@Nucleus.table false (openingLexeme environment) closed environment _ _ rfl hgrid
    hclosed).row
  refine readAs_of_nucleus hexact ⟨_, hitems, rfl⟩ hrow ?_ ?_
  · simp [Atom.erase_eq, eraseRows_eq_map, eraseAll_eq_map, hdropped]
  · exact Atom.nest_table_le (Nat.succ_pos _) fun row hrow =>
      nest_lt_of_read hexact hread row (mem_of_mem_dropEmptyRow hrow)

theorem readAll_table (hexact : options.fillMissing = false) (hne : sources ≠ [])
    (hrows : ∀ row ∈ sources, row ≠ [])
    (hread : List.Forall₂ (List.Forall₂ fun source cell => read source options = .ok cell)
      sources rows)
    (hcolumns : environment.allowsColumns = false) (hwide : ∃ row ∈ sources, 1 < row.length) :
    readAll (Text.table environment sources) { options with maxDepth := options.maxDepth + 1 } =
      .error ((tableMarks environment sources).map (strayColumn ∘ columnSpan)) := by
  obtain ⟨lexemes, closed, hitems, hlaid, hclosed⟩ :=
    significantItems_table environment hexact hne hrows hread
  let deeper : ReadingOptions := { options with maxDepth := options.maxDepth + 1 }
  let source := Text.table environment sources
  let context : Context := .ofSource .collect deeper source
  let opened := openingLexeme environment
  let s : State := { rest := significantItems source }
  have htakes : s.Takes (opened :: (lexemes ++ [closed])) _ := State.takes_all hitems
  have hshorter := htakes.shorter
  obtain ⟨grid, t, hgrid, hend, hreported⟩ := @Readers.gridStep_reports environment context
    (s.advanced opened) _ closed lexemes rows _ s.rest.length hlaid hcolumns rfl hclosed
    (nest_lt_of_read hexact hread) opened.span [] [] (by omega) htakes.tail
  let atom : Atom := {
    kind := .table, nucleus := environment.name, rows := grid
    span := ⟨opened.span.start, t.lastEnd⟩ }
  have htable : (Readers.upTo s.rest.length).lexemeStep context opened [] (s.advanced opened) =
      .ok [atom] t := by
    have hatom : (Readers.upTo s.rest.length).table context environment opened.span
        (s.advanced opened) = .ok atom t := bind_of_ok hgrid _
    exact bind_of_ok hatom _
  have hrow : (Readers.upTo (s.rest.length + 1)).row context [] s = .ok [atom] t := by
    change (Readers.upTo s.rest.length).rowStep context [] s = _
    rw [Readers.rowStep_of_takes htakes rfl, bind_of_ok htable]
    exact Readers.row_of_rest_nil hend context [atom] s.rest.length
  have hrun := (runReading_eq_root .collect deeper (Nat.lt_succ_self _)).trans
    (Readers.root_of_row_ok hrow (.inr (List.cons_ne_nil _ _)))
  refine readAll_of_reported hrun ?_ ?_ ?_
  · rw [hreported, show (s.advanced opened).reported = [] from rfl]
    simp
  · simp [tableMarks, bodyMarks_ne_nil hwide]
  · have hsorted : (significantItems source).Pairwise fun a b => a.span.start < b.span.start :=
      ((Cursor.start source).items_pairwise _).filter _
    rw [hitems, List.map_cons, List.pairwise_cons, List.map_append, List.pairwise_append,
      List.pairwise_map] at hsorted
    have hspans : (lexemes.map Lexeme.span).Pairwise fun a b => a.start < b.start :=
      List.pairwise_map.mpr hsorted.2.1
    rw [← List.map_map, List.pairwise_map]
    exact (hspans.sublist hlaid.marks_sublist).imp Nat.le_of_lt

theorem read_in_cells (hexact : options.fillMissing = false) (environment : Environment)
    (hne : sources ≠ []) (hrows : ∀ row ∈ sources, row ≠ [])
    (hread : List.Forall₂ (List.Forall₂ fun source cell => read source options = .ok cell)
      sources rows) :
    let deeper : ReadingOptions := { options with maxDepth := options.maxDepth + 1 }
    ((environment = .gathered → ∀ row ∈ sources, row.length = 1) →
      ReadAs (Text.table environment sources) deeper
        [{ kind := .table, nucleus := environment.name, rows := dropEmptyRow rows }]) ∧
    (environment = .gathered → (∃ row ∈ sources, 1 < row.length) →
      readAll (Text.table environment sources) deeper =
        .error ((tableMarks environment sources).map fun mark =>
          ⟨.misplacedSeparator .column, ⟨mark, mark + 1⟩⟩)) := by
  intro deeper
  have hallows : environment.allowsColumns = true ↔ environment ≠ .gathered := by
    simp [Environment.allowsColumns]
  constructor
  · intro hsingle
    refine readAs_table hexact hne hrows hread ?_
    by_cases hgathered : environment = .gathered
    · exact .inr (hsingle hgathered)
    · exact .inl (hallows.mpr hgathered)
  · intro hgathered hwide
    have hcolumns : environment.allowsColumns = false := by rw [hgathered]; rfl
    exact readAll_table hexact hne hrows hread hcolumns hwide

theorem comment_in_cells :
    let sources := [["x", "% &"], [""]]
    let cells : List (List Formula) := [[[.symbol .ordinary "x" ⟨0, 1⟩], []], [[]]]
    sources ≠ [] ∧ (∀ row ∈ sources, row ≠ []) ∧
    List.Forall₂ (List.Forall₂ fun source cell => read source { maxDepth := 0 } = .ok cell)
      sources cells ∧
    ReadAs (Text.table .matrix sources) { maxDepth := 1 }
      [{ kind := .table, nucleus := "matrix", rows := [[[.symbol .ordinary "x" ⟨0, 1⟩], []]] }] ∧
    readAll (Text.table .gathered sources) { maxDepth := 1 } =
      .error [⟨.misplacedSeparator .column, ⟨18, 19⟩⟩] := by
  intro sources cells
  have hread : List.Forall₂ (List.Forall₂ fun source cell =>
      read source { maxDepth := 0 } = .ok cell) sources cells :=
    .cons (.cons (by decide +kernel) (.cons (by decide +kernel) .nil))
      (.cons (.cons (by decide +kernel) .nil) .nil)
  have hrows : ∀ row ∈ sources, row ≠ [] := by decide
  have hmatrix := (read_in_cells rfl .matrix (by decide) hrows hread).1 (by nofun)
  have hgathered := (read_in_cells rfl .gathered (by decide) hrows hread).2 rfl (by decide)
  exact ⟨by decide, hrows, hread, hmatrix, hgathered⟩

end Formula

end TexMath
