import TexMath.Proofs.Formula.WellFormed
import TexMath.Proofs.Grammar.Segments
import TexMath.Proofs.Reading.Ranges
import TexMath.Proofs.Reading.Rules

/-!
# What a reading builds

A reading that stops at the first error goes on in its source and builds atoms on the way.  `Built`
says how: it has one constructor for each way to begin an atom and to change the latest one, with
the offsets between which that is done.  The rules are gone through once, and what holds of all that
is read follows by induction on how it has been built.
-/

namespace TexMath

open Grammar Lexeme

variable {source : String} {low stop stop' : Nat}

structure BlankBetween (source : String) (low high : Nat) : Prop where
  le : low ≤ high
  le_size : high ≤ source.utf8ByteSize
  blank : ∀ byte, low ≤ byte → byte < high → SpacingAt source byte ∨ InComment source byte

/-! ## Places between lexemes -/

/-- The state is behind some lexemes of the source, the last of which ends at the offset. -/
def State.EndsAt (source : String) (stop : Nat) (s : State) : Prop :=
  ∃ front back, significantItems source = (front ++ back).map .lexeme ∧
    s.rest = back.map .lexeme ∧ endOf 0 front = stop ∧ s.lastEnd = stop

structure Context.Halting (context : Context) (source : String) : Prop where
  first : context.mode = .firstError
  sourceEnd : context.sourceEnd = source.utf8ByteSize

theorem Lexeme.endOf_le {lexemes : List Lexeme} {offset bound : Nat} (hoffset : offset ≤ bound)
    (h : ∀ lexeme ∈ lexemes, lexeme.span.stop ≤ bound) : endOf offset lexemes ≤ bound := by
  induction lexemes generalizing offset with
  | nil => exact hoffset
  | cons lexeme lexemes ih =>
      rw [List.forall_mem_cons] at h
      exact ih h.1 h.2

namespace State.EndsAt

variable {s : State} {context : Context} {next : Lexeme}

theorem lastEnd_eq (h : s.EndsAt source stop) : s.lastEnd = stop := by
  obtain ⟨-, -, -, -, -, hend⟩ := h
  exact hend

theorem blankBetween (h : s.EndsAt source stop) (halting : context.Halting source) :
    BlankBetween source stop (context.upcoming s.rest).span.start := by
  obtain ⟨front, back, hitems, hrest, rfl, -⟩ := h
  obtain ⟨hfront, hback⟩ := InOrder.append_iff.mp (inOrder_of_significantItems hitems)
  have hmet : ∀ lexeme ∈ front ++ back,
      lexeme.MetIn (significantItems source) source.utf8ByteSize := fun lexeme hmem =>
    .inl (hitems ▸ List.mem_map_of_mem hmem)
  have hsize : ∀ lexeme ∈ front ++ back, lexeme.span.start ≤ source.utf8ByteSize ∧
      lexeme.span.stop ≤ source.utf8ByteSize := by
    intro lexeme hmem
    have hbounds := (covers_of_metIn (hmet lexeme hmem)).1.bounds
    omega
  have hlast : endOf 0 front ≤ source.utf8ByteSize :=
    endOf_le (Nat.zero_le _) fun lexeme hmem => (hsize lexeme (List.mem_append_left _ hmem)).2
  -- The next lexeme lies behind those taken and in front of all others.
  have hnext : endOf 0 front ≤ (context.upcoming s.rest).span.start ∧
      (context.upcoming s.rest).span.start ≤ source.utf8ByteSize ∧
      ∀ lexeme ∈ back, (context.upcoming s.rest).span.start ≤ lexeme.span.start := by
    rw [hrest]
    cases back with
    | nil =>
        change _ ≤ context.sourceEnd ∧ context.sourceEnd ≤ _ ∧ _
        rw [halting.sourceEnd]
        exact ⟨hlast, Nat.le_refl _, nofun⟩
    | cons first others =>
        refine ⟨hback.1, (hsize first (by simp)).1, List.forall_mem_cons.mpr ⟨Nat.le_refl _, ?_⟩⟩
        intro lexeme hmem
        exact Nat.le_trans (Nat.le_of_lt hback.2.1) (hback.2.2.of_mem hmem).1
  refine ⟨hnext.1, hnext.2.1, fun byte hlow hhigh => ?_⟩
  rcases covered_of_significantItems hitems (Nat.lt_of_lt_of_le hhigh hnext.2.1) with
    hspacing | hcomment | ⟨lexeme, hmem, hstart, hstop⟩
  · exact .inl hspacing
  · exact .inr hcomment
  · rcases List.mem_append.mp hmem with hmem | hmem
    · have := (hfront.of_mem hmem).2.2
      omega
    · have := hnext.2.2 lexeme hmem
      omega

theorem advanced (h : s.EndsAt source stop) (hnext : context.upcoming s.rest = next)
    (htoken : next.token ≠ .sourceEnd) :
    next.span.start < next.span.stop ∧ (s.advanced next).EndsAt source next.span.stop := by
  obtain ⟨front, back, hitems, hrest, rfl, -⟩ := h
  have htaken := (State.takes_upcoming hnext.symm htoken).rest_eq_cons
  rw [hrest] at htaken
  obtain ⟨first, others, rfl, hfirst, hothers⟩ := List.map_eq_cons_iff.mp htaken
  cases hfirst
  obtain ⟨-, hback⟩ := InOrder.append_iff.mp (inOrder_of_significantItems hitems)
  exact ⟨hback.2.1, front ++ [next], others, by simp [hitems], by simp [advanced, hrest], by simp,
    rfl⟩

end State.EndsAt

/-! ## Moving on in the source -/

namespace Reading

variable {α β : Type}

/-- From the states the reading comes to a later place of the source, for which the property holds
together with what it returns. -/
def MovesFrom (before : State → Prop) (source : String) (stop : Nat) (read : Reading α)
    (after : α → Nat → Prop) : Prop :=
  ∀ s a t, before s → read s = .ok a t →
    ∃ stop', stop ≤ stop' ∧ t.EndsAt source stop' ∧ after a stop'

abbrev Moves (source : String) (stop : Nat) (read : Reading α) (after : α → Nat → Prop) : Prop :=
  MovesFrom (State.EndsAt source stop) source stop read after

def Facing (context : Context) (next : Lexeme) (source : String) (stop : Nat) (s : State) : Prop :=
  s.EndsAt source stop ∧ context.upcoming s.rest = next

namespace MovesFrom

variable {before : State → Prop} {read other : Reading α} {next : α → Reading β}
  {after middle : α → Nat → Prop} {last : β → Nat → Prop} {context : Context} {lexeme : Lexeme}

theorem pure {a : α} (h : after a stop) : Moves source stop (pure a) after := by
  intro s b t hs hread
  obtain ⟨rfl, rfl⟩ := pure_eq_ok.mp hread
  exact ⟨stop, Nat.le_refl _, hs, h⟩

theorem bind (h : MovesFrom before source stop read middle)
    (hnext : ∀ a stop', stop ≤ stop' → middle a stop' → Moves source stop' (next a) last) :
    MovesFrom before source stop (read >>= next) last := by
  intro s b t hs hread
  obtain ⟨a, place, hfirst, hrest⟩ := bind_eq_ok.mp hread
  obtain ⟨stop', hle, hplace, hmiddle⟩ := h s a place hs hfirst
  obtain ⟨stop'', hle', ht, hlast⟩ := hnext a stop' hle hmiddle place b t hplace hrest
  exact ⟨stop'', Nat.le_trans hle hle', ht, hlast⟩

theorem weaken {after' : α → Nat → Prop} (h : MovesFrom before source stop read after)
    (hafter : ∀ a stop', after a stop' → after' a stop') :
    MovesFrom before source stop read after' := by
  intro s a t hs hread
  obtain ⟨stop', hle, ht, h⟩ := h s a t hs hread
  exact ⟨stop', hle, ht, hafter a stop' h⟩

theorem ite {condition : Prop} [Decidable condition]
    (h : condition → MovesFrom before source stop read after)
    (hother : ¬condition → MovesFrom before source stop other after) :
    MovesFrom before source stop (if condition then read else other) after := by
  split
  · rename_i hcondition
    exact h hcondition
  · rename_i hcondition
    exact hother hcondition

theorem of_facing (h : Moves source stop read after) :
    MovesFrom (Facing context lexeme source stop) source stop read after :=
  fun s a t hs => h s a t hs.1

theorem lastEnd_bind {next : Nat → Reading β} (h : Moves source stop (next stop) last) :
    Moves source stop (lastEnd >>= next) last := by
  intro s b t hs hread
  change next s.lastEnd s = .ok b t at hread
  rw [hs.lastEnd_eq] at hread
  exact h s b t hs hread

theorem report (halting : context.Halting source) (error : ParseError)
    (next : Unit → Reading β) : MovesFrom before source stop (context.report error >>= next) last :=
  fun _ _ _ _ hread => absurd hread (Context.report_bind_ne_ok halting.first _ _ _)

theorem peek_bind (halting : context.Halting source) {next : Lexeme → Reading β}
    (h : ∀ lexeme, BlankBetween source stop lexeme.span.start →
      MovesFrom (Facing context lexeme source stop) source stop (next lexeme) last) :
    Moves source stop (context.peek >>= next) last := by
  intro s b t hs hread
  have hnext := (Context.peek_bind_eq_ok halting.first).mp hread
  exact h _ (hs.blankBetween halting) s b t ⟨hs, rfl⟩ hnext.2

theorem advance_bind (htoken : lexeme.token ≠ .sourceEnd) (hle : stop ≤ lexeme.span.start)
    {next : Unit → Reading β}
    (h : lexeme.span.start < lexeme.span.stop → Moves source lexeme.span.stop (next ()) last) :
    MovesFrom (Facing context lexeme source stop) source stop (Context.advance lexeme >>= next)
      last := by
  intro s b t hs hread
  obtain ⟨hlt, hadvanced⟩ := hs.1.advanced hs.2 htoken
  rw [bind_of_ok (State.advance_apply s lexeme)] at hread
  obtain ⟨stop', hle', ht, hlast⟩ := h hlt _ b t hadvanced hread
  exact ⟨stop', by omega, ht, hlast⟩

theorem deeper {place : Span} {inner : Context → Reading α}
    (h : MovesFrom before source stop (inner { context with depth := context.depth + 1 }) after) :
    MovesFrom before source stop (context.deeper place inner) after :=
  fun s a t hs hread => h s a t hs ((Context.deeper_eq_ok context).mp hread).2

theorem inGroup {closer : Closer} {place : Span} {inner : Context → Reading α}
    (h : MovesFrom before source stop (inner (context.inside closer)) after) :
    MovesFrom before source stop (context.inGroup closer place inner) after :=
  fun s a t hs hread => h s a t hs (Context.inGroup_eq_ok.mp hread).2

end MovesFrom

end Reading

/-! ## How atoms are built -/

inductive Part where
  | row
  | slot

/-- The atoms have been built between the offsets `low` and `stop`.  Those of a row come latest
first; a slot is filled with a row that is complete, or with a placeholder. -/
inductive Built (source : String) : Part → Nat → Nat → List Atom → Prop
  | nil {low stop : Nat} : Built source .row low stop []
  | wider {part : Part} {low low' stop stop' : Nat} {atoms : List Atom} :
      Built source part low stop atoms → low' ≤ low → stop ≤ stop' →
      Built source part low' stop' atoms
  | slot {low stop : Nat} {atoms : List Atom} :
      Built source .row low stop atoms → Built source .slot low stop atoms.reverse
  | missing {low stop offset : Nat} : low ≤ offset → BlankBetween source stop offset →
      Built source .slot low stop [.symbol .placeholder "□" (.point offset)]
  | character {low : Nat} {span : Span} {c : Char} {kind : AtomKind} {atoms : List Atom} :
      Literal.kind? c = some kind → low ≤ span.start →
      Built source .row low span.stop atoms →
      Built source .row low span.stop (.symbol kind (Literal.nucleus c) span :: atoms)
  | command {low start stop : Nat} {name : String} {template : Template}
      {arguments : List Formula} {atoms : List Atom} :
      Command.find? name = some (.atom template) →
      template.arguments ≤ arguments.length →
      arguments.length ≤ template.arguments + (if template.optionalArgument then 1 else 0) →
      (∀ content ∈ arguments, Built source .slot start stop content) →
      low ≤ start → Built source .row low stop atoms →
      Built source .row low stop
        ({ kind := template.kind, nucleus := template.nucleus, arguments, span := ⟨start, stop⟩ } ::
          atoms)
  | group {low start stop : Nat} {content : Formula} {boundaries : Option Boundaries}
      {atoms : List Atom} :
      (∀ fence ∈ boundaries, Delimiter.IsGlyph fence.left ∧ Delimiter.IsGlyph fence.right) →
      Built source .slot start stop content → low ≤ start → Built source .row low stop atoms →
      Built source .row low stop (.group content boundaries ⟨start, stop⟩ :: atoms)
  | table {low start stop : Nat} {environment : Environment} {rows : List (List Formula)}
      {atoms : List Atom} :
      (∀ row ∈ rows, row ≠ [] ∧ (environment = .gathered → row.length = 1)) →
      (∀ row ∈ rows, ∀ cell ∈ row, Built source .slot start stop cell) →
      low ≤ start → Built source .row low stop atoms →
      Built source .row low stop
        ({ kind := .table, nucleus := environment.name, rows, span := ⟨start, stop⟩ } :: atoms)
  | script {low start stop : Nat} {which : Script} {content : Formula} {atom : Atom}
      {atoms : List Atom} :
      atom.kind.acceptsScripts = true → Built source .slot start stop content → low ≤ start →
      Built source .row low stop (atom :: atoms) →
      Built source .row low stop (atom.withScript which content ⟨start, stop⟩ :: atoms)
  | scriptBase {low start stop : Nat} {which : Script} {content : Formula} :
      Built source .slot start stop content → low ≤ start → start ≤ stop →
      Built source .row low stop [(Atom.scriptBase start).withScript which content ⟨start, stop⟩]
  | limits {low : Nat} {place : Span} {usual value : Bool} {atom : Atom} {atoms : List Atom} :
      atom.kind = .largeOperator usual → low ≤ place.start →
      Built source .row low place.stop (atom :: atoms) →
      Built source .row low place.stop (atom.withLimits value place :: atoms)

theorem Built.later {part : Part} {atoms : List Atom} (h : Built source part low stop atoms)
    (hle : stop ≤ stop') : Built source part low stop' atoms :=
  h.wider (Nat.le_refl _) hle

/-- The atom may be added to every row that begins in front of it. -/
def Atom.Joins (source : String) (start stop : Nat) (atom : Atom) : Prop :=
  ∀ low atoms, low ≤ start → Built source .row low stop atoms →
    Built source .row low stop (atom :: atoms)

/-- The rows of a table as far as they are read. -/
structure BuiltRows (source : String) (environment : Environment) (low stop : Nat)
    (rows : List (List Formula)) : Prop where
  shape : ∀ row ∈ rows, row ≠ [] ∧ (environment = .gathered → row.length = 1)
  cells : ∀ row ∈ rows, ∀ cell ∈ row, Built source .slot low stop cell

namespace BuiltRows

variable {environment : Environment} {rows : List (List Formula)} {cells : List Formula}

theorem later (h : BuiltRows source environment low stop rows) (hle : stop ≤ stop') :
    BuiltRows source environment low stop' rows where
  shape := h.shape
  cells row hrow cell hcell := (h.cells row hrow cell hcell).later hle

theorem cons (h : BuiltRows source environment low stop rows)
    (hcells : ∀ cell ∈ cells, Built source .slot low stop cell) (hne : cells ≠ [])
    (hone : environment = .gathered → cells.length = 1) :
    BuiltRows source environment low stop (cells.reverse :: rows) where
  shape := List.forall_mem_cons.mpr ⟨⟨by simpa using hne, by simpa using hone⟩, h.shape⟩
  cells := List.forall_mem_cons.mpr ⟨by simpa using hcells, h.cells⟩

theorem of_subset {others : List (List Formula)} (h : BuiltRows source environment low stop rows)
    (hsubset : others ⊆ rows) : BuiltRows source environment low stop others where
  shape row hrow := h.shape row (hsubset hrow)
  cells row hrow := h.cells row (hsubset hrow)

theorem closeGrid (h : BuiltRows source environment low stop rows)
    (hcells : ∀ cell ∈ cells, Built source .slot low stop cell) (hne : cells ≠ [])
    (hone : environment = .gathered → cells.length = 1) :
    BuiltRows source environment low stop (Readers.closeGrid rows cells) := by
  refine (h.cons hcells hne hone).of_subset fun row hrow => ?_
  rw [Readers.closeGrid_eq] at hrow
  have hmem := mem_of_mem_dropEmptyRow hrow
  simpa [or_comm] using hmem

end BuiltRows

/-! ## The rules of the reading -/

namespace Readers

open Reading

structure Builds (readers : Readers) (source : String) : Prop where
  row : ∀ {context : Context} {atoms : List Atom} {low stop : Nat}, context.Halting source →
    low ≤ stop → Built source .row low stop atoms →
    Moves source stop (readers.row context atoms) fun formula stop' =>
      Built source .slot low stop' formula
  lexeme : ∀ {context : Context} {lexeme : Lexeme} {atoms : List Atom} {low : Nat},
    context.Halting source → low ≤ lexeme.span.start → lexeme.span.start < lexeme.span.stop →
    Built source .row low lexeme.span.stop atoms →
    Moves source lexeme.span.stop (readers.lexeme context lexeme atoms) fun result stop' =>
      Built source .row low stop' result
  grid : ∀ {context : Context} {environment : Environment} {opened : Span}
    {rows : List (List Formula)} {cells : List Formula} {low stop : Nat},
    context.Halting source → low ≤ stop → BuiltRows source environment low stop rows →
    (∀ cell ∈ cells, Built source .slot low stop cell) → (environment = .gathered → cells = []) →
    Moves source stop (readers.grid context environment opened rows cells) fun result stop' =>
      BuiltRows source environment low stop' result

namespace Builds

variable {readers : Readers} (builds : readers.Builds source) {context : Context}
  (halting : context.Halting source)
include builds halting

/-! ### Groups and arguments -/

theorem rowInside (closer : Closer) (opened : Span) (hlow : low ≤ stop) :
    Moves source stop (context.inGroup closer opened fun inside => readers.row inside [])
      fun content stop' => Built source .slot low stop' content :=
  .inGroup (builds.row ⟨halting.first, halting.sourceEnd⟩ hlow .nil)

theorem enclosed (closer : Closer) {close : Token} (cause : Cause) (opened : Span)
    (hclose : close ≠ .sourceEnd) (hlow : low ≤ stop) :
    Moves source stop (readers.enclosed context closer close cause opened) fun content stop' =>
      Built source .slot low stop' content := by
  refine .bind (builds.rowInside halting closer opened hlow) ?_
  intro content stop' hle hcontent
  refine .peek_bind halting ?_
  intro next hblank
  refine .ite ?_ ?_
  · intro htoken
    refine .advance_bind (htoken ▸ hclose) hblank.le fun hlt => .pure (hcontent.later ?_)
    exact Nat.le_trans hblank.le (Nat.le_of_lt hlt)
  · intro _
    exact .report halting _ _

omit builds in
theorem missingArgument (command : String) {next : Lexeme} (hlow : low ≤ stop)
    (hblank : BlankBetween source stop next.span.start) :
    Moves source stop (Readers.missingArgument context command next.span) fun content stop' =>
      Built source .slot low stop' content := by
  unfold Readers.missingArgument
  refine .ite ?_ ?_
  · intro _
    exact .pure (.missing (Nat.le_trans hlow hblank.le) hblank)
  · intro _
    exact .report halting _ _

theorem argument (command : String) (hlow : low ≤ stop) :
    Moves source stop (readers.argument context command) fun content stop' =>
      Built source .slot low stop' content := by
  refine .peek_bind halting ?_
  intro next hblank
  have hnext := Nat.le_trans hlow hblank.le
  refine .ite ?_ ?_
  · intro htoken
    refine .advance_bind (by simp [htoken]) hblank.le fun hlt => ?_
    exact builds.enclosed halting .brace _ next.span (by simp)
      (Nat.le_trans hnext (Nat.le_of_lt hlt))
  intro _
  refine .ite ?_ ?_
  · intro hstarts
    have hcloses := (Context.closes_of_startsArgument hstarts).1
    refine .advance_bind (Context.ne_sourceEnd_of_closes hcloses) hblank.le fun hlt => .deeper ?_
    refine .bind (builds.lexeme ⟨halting.first, halting.sourceEnd⟩ hnext hlt .nil) ?_
    intro atoms stop' _ hatoms
    exact .pure hatoms.slot
  · intro _
    exact .of_facing (missingArgument halting command hlow hblank)

theorem arguments (command : String) (hlow : low ≤ stop) (count : Nat) :
    Moves source stop (readers.arguments context command count) fun contents stop' =>
      contents.length = count ∧ ∀ content ∈ contents, Built source .slot low stop' content := by
  induction count generalizing stop with
  | zero => exact .pure ⟨rfl, nofun⟩
  | succ count ih =>
      refine .bind (builds.argument halting command hlow) ?_
      intro first middle hle hfirst
      refine .bind (ih (Nat.le_trans hlow hle)) ?_
      intro rest stop' hle' hrest
      exact .pure ⟨by simp [hrest.1], List.forall_mem_cons.mpr ⟨hfirst.later hle', hrest.2⟩⟩

theorem index? (hlow : low ≤ stop) :
    Moves source stop (readers.index? context) fun index stop' =>
      ∀ content ∈ index.toList, Built source .slot low stop' content := by
  refine .peek_bind halting ?_
  intro next hblank
  refine .ite ?_ ?_
  · intro htoken
    refine .advance_bind (by simp [htoken]) hblank.le fun hlt => ?_
    have hlater := Nat.le_trans hblank.le (Nat.le_of_lt hlt)
    refine .bind (builds.enclosed halting .bracket _ next.span (by simp)
      (Nat.le_trans hlow hlater)) ?_
    intro content stop' _ hcontent
    exact .pure (List.forall_mem_singleton.mpr hcontent)
  · intro _
    exact .of_facing (.pure nofun)

theorem structured {template : Template} {name : String} {place : Span}
    (hplace : place.start ≤ place.stop) (hfind : Command.find? name = some (.atom template)) :
    Moves source place.stop (readers.structured context template name place) fun atom stop' =>
      atom.Joins source place.start stop' := by
  by_cases hnone : template.arguments = 0 ∧ ¬ template.optionalArgument
  · unfold Readers.structured
    rw [if_pos hnone]
    refine .pure fun low atoms hlow hatoms => ?_
    exact .command hfind (by simp [hnone.1]) (by simp) (by simp) hlow hatoms
  rw [structured_eq name place hnone]
  have hindex : Moves source place.stop
      (if template.optionalArgument then readers.index? context else Pure.pure none)
      fun index stop' =>
        index.toList.length ≤ (if template.optionalArgument then 1 else 0) ∧
          ∀ content ∈ index.toList, Built source .slot place.start stop' content := by
    cases template.optionalArgument with
    | true =>
        refine (builds.index? halting hplace).weaken fun index stop' hindex => ⟨?_, hindex⟩
        cases index <;> simp
    | false => exact .pure (by simp)
  refine .bind hindex ?_
  intro index middle hle hindex
  refine .bind (builds.arguments halting _ (Nat.le_trans hplace hle) _) ?_
  intro contents stop' hle' hcontents
  refine .lastEnd_bind (.pure fun low atoms hlow hatoms => ?_)
  refine .command hfind ?_ ?_ ?_ hlow hatoms
  · simp [hcontents.1]
  · simpa [hcontents.1] using hindex.1
  · intro content hcontent
    rcases List.mem_append.mp hcontent with hcontent | hcontent
    · exact hcontents.2 content hcontent
    · exact (hindex.2 content hcontent).later hle'

/-! ### Scripts and limits -/

theorem scripted (which : Script) {mark : Span} {atom : Atom} {earlier : List Atom}
    (hmark : mark.start ≤ mark.stop) (hlow : low ≤ mark.start)
    (hatoms : Built source .row low mark.stop (atom :: earlier) ∨
      atom = .scriptBase mark.start ∧ earlier = []) :
    Moves source mark.stop (readers.scripted context which mark atom) fun result stop' =>
      Built source .row low stop' (result :: earlier) := by
  unfold Readers.scripted
  cases hproblem : scriptProblem? atom which with
  | some cause => exact .report halting _ _
  | none =>
      obtain ⟨haccepts, -⟩ := scriptProblem?_eq_none.mp hproblem
      refine .bind (builds.argument halting which.mark hmark) ?_
      intro content stop' hle hcontent
      refine .lastEnd_bind (.pure ?_)
      rcases hatoms with hatoms | ⟨rfl, rfl⟩
      · exact .script haccepts hcontent hlow (hatoms.later hle)
      · exact .scriptBase hcontent hlow (Nat.le_trans hmark hle)

theorem script (which : Script) {mark : Span} {atoms : List Atom}
    (hmark : mark.start ≤ mark.stop) (hlow : low ≤ mark.start)
    (hatoms : Built source .row low mark.stop atoms) :
    Moves source mark.stop (readers.script context which mark atoms) fun result stop' =>
      Built source .row low stop' result := by
  refine .peek_bind halting ?_
  intro next _
  refine .of_facing ?_
  cases next.token.script? with
  | some following => exact .report halting _ _
  | none =>
      cases atoms with
      | nil =>
          refine .bind (builds.scripted halting which hmark hlow (.inr ⟨rfl, rfl⟩)) ?_
          exact fun result stop' _ hresult => .pure hresult
      | cons atom earlier =>
          refine .bind (builds.scripted halting which hmark hlow (.inl hatoms)) ?_
          exact fun result stop' _ hresult => .pure hresult

omit builds in
theorem setLimits (value : Bool) {place : Span} {atoms : List Atom} (hlow : low ≤ place.start)
    (hatoms : Built source .row low place.stop atoms) :
    Moves source place.stop (Readers.setLimits context value place atoms) fun result stop' =>
      Built source .row low stop' result := by
  unfold Readers.setLimits
  split
  · exact .pure (hatoms.limits rfl hlow)
  · exact .report halting _ _

/-! ### Fenced groups and tables -/

omit builds in
theorem delimiter (fence : Fence) (place : Span) :
    Moves source stop (Readers.delimiter context fence place) fun glyph _ =>
      Delimiter.IsGlyph glyph := by
  refine .peek_bind halting ?_
  intro next hblank
  refine .ite ?_ ?_
  · intro _
    exact .report halting _ _
  · intro hother
    refine .advance_bind (fun hend => hother (.inl hend)) hblank.le fun _ => ?_
    cases hglyph : Delimiter.glyph? next.token with
    | some glyph => exact .pure ⟨next.token, hglyph⟩
    | none => exact .report halting _ _

theorem fenced {opened : Span} (hopened : opened.start ≤ opened.stop) :
    Moves source opened.stop (readers.fenced context opened) fun atom stop' =>
      atom.Joins source opened.start stop' := by
  refine .bind (delimiter halting .left opened) ?_
  intro left first hfirst hleft
  refine .bind (builds.rowInside halting .right opened (Nat.le_trans hopened hfirst)) ?_
  intro content middle _ hcontent
  refine .peek_bind halting ?_
  intro next hblank
  refine .ite ?_ ?_
  · intro htoken
    refine .advance_bind (by simp [htoken]) hblank.le fun hlt => ?_
    refine .bind (delimiter halting .right next.span) ?_
    intro right stop' hle hright
    have hbehind := hblank.le
    refine .lastEnd_bind (.pure fun low atoms hlow hatoms => ?_)
    exact .group (by simpa using ⟨hleft, hright⟩) (hcontent.later (by omega)) hlow hatoms
  · intro _
    exact .report halting _ _

theorem gridStep (environment : Environment) (opened : Span) {rows : List (List Formula)}
    {cells : List Formula} (hlow : low ≤ stop) (hrows : BuiltRows source environment low stop rows)
    (hcells : ∀ cell ∈ cells, Built source .slot low stop cell)
    (hone : environment = .gathered → cells = []) :
    Moves source stop (readers.gridStep context environment opened rows cells)
      fun result stop' => BuiltRows source environment low stop' result := by
  refine .bind (builds.rowInside halting .cell opened hlow) ?_
  intro cell middle hmiddle hcell
  refine .peek_bind halting ?_
  intro next hblank
  have hlength : environment = .gathered → (cell :: cells).length = 1 := by
    intro hgathered
    simp [hone hgathered]
  -- All cells read so far lie in front of the end of the next lexeme.
  have hall : ∀ found ∈ cell :: cells, Built source .slot low middle found :=
    List.forall_mem_cons.mpr ⟨hcell, fun found hfound => (hcells found hfound).later hmiddle⟩
  have hlater : next.span.start < next.span.stop → low ≤ next.span.stop ∧
      BuiltRows source environment low next.span.stop rows ∧
      ∀ found ∈ cell :: cells, Built source .slot low next.span.stop found := by
    intro hlt
    have hle := Nat.le_trans hblank.le (Nat.le_of_lt hlt)
    exact ⟨by omega, hrows.later (Nat.le_trans hmiddle hle), fun found hfound =>
      (hall found hfound).later hle⟩
  dsimp only
  split
  · rename_i htoken
    refine .advance_bind (by simp [htoken]) hblank.le fun hlt => ?_
    obtain ⟨hlow, hrows, hcells⟩ := hlater hlt
    refine .ite ?_ ?_
    · intro _
      exact .report halting _ _
    · intro hcolumns
      refine builds.grid halting hlow hrows hcells ?_
      rintro rfl
      exact absurd rfl hcolumns
  · rename_i found htoken
    refine .advance_bind (by simp [htoken]) hblank.le fun hlt => ?_
    obtain ⟨-, hrows, hcells⟩ := hlater hlt
    refine .ite ?_ ?_
    · intro _
      exact .report halting _ _
    · intro _
      exact .pure (hrows.closeGrid hcells (by simp) hlength)
  · refine .ite ?_ ?_
    · intro htoken
      refine .advance_bind (by simp [htoken]) hblank.le fun hlt => ?_
      obtain ⟨hlow, hrows, hcells⟩ := hlater hlt
      exact builds.grid halting hlow (hrows.cons hcells (by simp) hlength) nofun fun _ => rfl
    · intro _
      exact .report halting _ _

theorem table (environment : Environment) {opened : Span} (hopened : opened.start ≤ opened.stop) :
    Moves source opened.stop (readers.table context environment opened) fun atom stop' =>
      atom.Joins source opened.start stop' := by
  refine .bind (builds.gridStep halting environment opened hopened ⟨nofun, nofun⟩ nofun
    fun _ => rfl) ?_
  intro rows stop' _ hrows
  exact .lastEnd_bind (.pure fun low atoms hlow hatoms =>
    .table hrows.shape hrows.cells hlow hatoms)

/-! ### Rows -/

omit builds halting in
theorem join {read : Reading Atom} {place : Span} {atoms : List Atom} (hlow : low ≤ place.start)
    (hread : Moves source place.stop read fun atom stop' => atom.Joins source place.start stop')
    (hatoms : Built source .row low place.stop atoms) :
    Moves source place.stop (read >>= fun atom => Pure.pure (atom :: atoms)) fun result stop' =>
      Built source .row low stop' result := by
  refine .bind hread ?_
  intro atom stop' hle hatom
  exact .pure (hatom low atoms hlow (hatoms.later hle))

theorem command (name : String) {place : Span} {atoms : List Atom} (hlow : low ≤ place.start)
    (hplace : place.start ≤ place.stop) (hatoms : Built source .row low place.stop atoms) :
    Moves source place.stop (readers.command context name place atoms) fun result stop' =>
      Built source .row low stop' result := by
  unfold Readers.command
  cases hfind : Command.find? name with
  | none => exact .report halting _ _
  | some command =>
      cases command with
      | atom template => exact join hlow (builds.structured halting hplace hfind) hatoms
      | limits value => exact setLimits halting value hlow hatoms
      | left => exact join hlow (builds.fenced halting hplace) hatoms
      | right =>
          have hstray : Moves source place.stop (strayRight context place) fun _ _ => True :=
            .report halting _ _
          exact .bind hstray fun _ stop' hle _ => .pure (hatoms.later hle)
      | newRow => exact .report halting _ _

theorem lexemeStep {lexeme : Lexeme} {atoms : List Atom} (hlow : low ≤ lexeme.span.start)
    (hlexeme : lexeme.span.start < lexeme.span.stop)
    (hatoms : Built source .row low lexeme.span.stop atoms) :
    Moves source lexeme.span.stop (readers.lexemeStep context lexeme atoms) fun result stop' =>
      Built source .row low stop' result := by
  have hplace := Nat.le_of_lt hlexeme
  unfold Readers.lexemeStep
  cases lexeme.token with
  | character c =>
      dsimp only
      cases hkind : Literal.kind? c with
      | some kind => exact .pure (hatoms.character hkind hlow)
      | none => exact .report halting _ _
  | bracketOpen => exact .pure (@Built.character _ _ _ '[' _ _ (by decide) hlow hatoms)
  | bracketClose => exact .pure (@Built.character _ _ _ ']' _ _ (by decide) hlow hatoms)
  | braceOpen =>
      refine .bind (builds.enclosed halting .brace _ lexeme.span (by simp) hplace) ?_
      intro content stop' hle hcontent
      exact .lastEnd_bind (.pure (.group nofun hcontent hlow (hatoms.later hle)))
  | superscriptMark => exact builds.script halting .superscript hplace hlow hatoms
  | subscriptMark => exact builds.script halting .subscript hplace hlow hatoms
  | command name => exact builds.command halting name hlow hplace hatoms
  | environmentBegin environment =>
      exact join hlow (builds.table halting environment hplace) hatoms
  | braceClose | environmentEnd | columnMark => exact .report halting _ _
  | blank | comment | sourceEnd => exact .pure hatoms

theorem rowStep {atoms : List Atom} (hlow : low ≤ stop)
    (hatoms : Built source .row low stop atoms) :
    Moves source stop (readers.rowStep context atoms) fun formula stop' =>
      Built source .slot low stop' formula := by
  refine .peek_bind halting ?_
  intro next hblank
  refine .ite ?_ ?_
  · intro _
    exact .of_facing (.pure hatoms.slot)
  · intro hcloses
    have htoken := Context.ne_sourceEnd_of_closes (by simpa using hcloses)
    refine .advance_bind htoken hblank.le fun hlt => ?_
    have hnext := Nat.le_trans hlow hblank.le
    have hbefore := hatoms.later (Nat.le_trans hblank.le (Nat.le_of_lt hlt))
    refine .bind (builds.lexemeStep halting hnext hlt hbefore) ?_
    intro atoms stop' hle hatoms
    exact builds.row halting (by omega) hatoms

omit halting in
theorem next : readers.next.Builds source where
  row halting := builds.rowStep halting
  lexeme halting := builds.lexemeStep halting
  grid halting := builds.gridStep halting _ _

end Builds

theorem builds_upTo (source : String) (bound : Nat) : (upTo bound).Builds source := by
  induction bound with
  | zero =>
      exact {
        row := fun _ _ hatoms => .pure hatoms.slot
        lexeme := fun _ _ _ hatoms => .pure hatoms
        grid := fun _ _ hrows _ _ =>
          .pure (hrows.of_subset fun row hrow => List.mem_reverse.mp hrow) }
  | succ bound ih => exact ih.next

end Readers

/-! ## Whole sources -/

namespace Formula

open Reading

variable {options : ReadingOptions} {formula : Formula}

theorem exists_built_of_read (h : read source options = .ok formula) :
    ∃ stop, Built source .slot 0 stop formula := by
  obtain ⟨s, hrun⟩ := readUntilError_eq_ok.mp (read_eq_ok_iff.mp h)
  obtain ⟨lexemes, hitems⟩ := significantItems_eq_lexemes_iff.mpr (notMem_items_of_read h)
  let start : State := { rest := significantItems source }
  have hstart : start.EndsAt source 0 := ⟨[], lexemes, hitems, hitems, rfl, rfl⟩
  have halting : (Context.ofSource .firstError options source).Halting source := ⟨rfl, rfl⟩
  have hroot : Moves source 0 ((Readers.upTo ((significantItems source).length + 1)).root
      (.ofSource .firstError options source)) fun found stop =>
        Built source .slot 0 stop found := by
    refine .bind ((Readers.builds_upTo source _).row halting (Nat.le_refl 0) .nil) ?_
    intro found stop _ hfound
    refine .ite ?_ ?_
    · intro _
      exact .report halting _ _
    · intro _
      exact .pure hfound
  obtain ⟨stop, -, -, hformula⟩ := hroot start formula s hstart hrun
  exact ⟨stop, hformula⟩

end Formula

end TexMath
