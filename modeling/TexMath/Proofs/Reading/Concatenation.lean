import TexMath.Proofs.Grammar.Language
import TexMath.Proofs.Reading.Displacement
import TexMath.Proofs.Reading.Earlier
import TexMath.Proofs.Token.Joins

/-!
# A formula above another source

Below a source that is read as a formula, another one is read as it is alone, with its spans moved.
The reading takes the lexemes of the formula and goes on with the row that they form.  If the other
source begins with an atom of its own, no rule looks at those of the formula any more.
-/

namespace TexMath

open Grammar Reading

/-! ## Atoms at another offset -/

mutual

def Atom.shift (count : Nat) : Atom → Atom
  | ⟨kind, nucleus, arguments, superscript, subscript, boundaries, rows, span⟩ =>
      { kind, nucleus, boundaries
        arguments := Formula.shiftAll count arguments
        superscript := Formula.shiftScript count superscript
        subscript := Formula.shiftScript count subscript
        rows := Formula.shiftRows count rows
        span := span.shift count }

def Formula.shift (count : Nat) : List Atom → List Atom
  | [] => []
  | atom :: rest => Atom.shift count atom :: Formula.shift count rest

def Formula.shiftAll (count : Nat) : List (List Atom) → List (List Atom)
  | [] => []
  | formula :: rest => Formula.shift count formula :: Formula.shiftAll count rest

def Formula.shiftScript (count : Nat) : Option (List Atom) → Option (List Atom)
  | none => none
  | some formula => some (Formula.shift count formula)

def Formula.shiftRows (count : Nat) : List (List (List Atom)) → List (List (List Atom))
  | [] => []
  | row :: rest => Formula.shiftAll count row :: Formula.shiftRows count rest

end

namespace Formula

variable (count : Nat)

theorem shiftAll_eq_map (formulas : List Formula) :
    shiftAll count formulas = formulas.map (shift count) := by
  induction formulas with
  | nil => rfl
  | cons formula rest ih => rw [shiftAll, ih, List.map_cons]

theorem shiftScript_eq_map (script : Option Formula) :
    shiftScript count script = script.map (shift count) := by
  cases script <;> rfl

theorem shiftRows_eq_map (rows : List (List Formula)) :
    shiftRows count rows = rows.map (·.map (shift count)) := by
  induction rows with
  | nil => rfl
  | cons row rest ih => rw [shiftRows, ih, shiftAll_eq_map, List.map_cons]

end Formula

variable {count : Nat}

def Displacement.shift (count : Nat) : Displacement where
  start offset := offset + count
  stop offset offset' := offset' = offset + count
  strictMono _ _ hlt := Nat.add_lt_add_right hlt count
  stop_start _ := rfl
  stop_max := by
    rintro a _ b _ rfl rfl
    exact Nat.add_max_add_right a b count

namespace Displacement

theorem spans_shift_iff {span span' : Span} :
    (shift count).Spans span span' ↔ span' = span.shift count := by
  constructor
  · rintro ⟨hstart, hstop⟩
    cases span'
    cases hstart
    cases hstop
    rfl
  · rintro rfl
    exact ⟨rfl, rfl⟩

theorem errors_shift {errors errors' : List ParseError}
    (h : List.Forall₂ (shift count).Errors errors errors') :
    errors' = errors.map (ParseError.shift count) := by
  have hsame : ∀ error error', (shift count).Errors error error' →
      error.shift count = error' := by
    rintro error ⟨cause, span⟩ ⟨hcause, hspan⟩
    obtain rfl := spans_shift_iff.mp hspan
    cases hcause
    rfl
  rw [map_eq_map_of_forall₂ hsame h, List.map_id']

theorem items_shift (items : List Item) :
    List.Forall₂ (shift count).Items items (items.map (Item.shift count)) := by
  rw [List.forall₂_map_right_iff, List.forall₂_same]
  intro item _
  cases item with
  | lexeme lexeme => exact .lexeme ⟨rfl, rfl, rfl, rfl⟩
  | fault error => exact .fault ⟨rfl, rfl, rfl⟩

end Displacement

namespace Pairing

def shift (count : Nat) : Pairing :=
  (Displacement.shift count).pairing fun f f' => Formula.shift count f = f'

theorem shift_eq_of_atoms {a a' : Atom} (h : (shift count).Atoms a a') : a.shift count = a' := by
  have hcontents : ∀ f f', (shift count).contents f f' → Formula.shift count f = id f' :=
    fun _ _ => id
  have harguments := map_eq_map_of_forall₂ hcontents h.arguments
  have hrows := map_eq_map_of_forall₂ (fun _ _ hrow => map_eq_map_of_forall₂ hcontents hrow) h.rows
  have hsuperscript := h.map_script hcontents .superscript
  have hsubscript := h.map_script hcontents .subscript
  have hspan : a'.span = a.span.shift count := Displacement.spans_shift_iff.mp h.span
  simp only [List.map_id, List.map_id'] at harguments hrows
  simp only [Atom.script, Option.map_id, id] at hsuperscript hsubscript
  obtain ⟨hkind, hnucleus, -, -, hboundaries, -, -⟩ := h
  cases a
  cases a'
  simp only [Atom.shift, Formula.shiftAll_eq_map, Formula.shiftScript_eq_map,
    Formula.shiftRows_eq_map, Atom.mk.injEq]
  exact ⟨hkind, hnucleus, harguments, hsuperscript, hsubscript, hboundaries, hrows, hspan.symm⟩

theorem shift_eq_of_rows {f f' : Formula} (h : (shift count).Rows f f') :
    Formula.shift count f = f' := by
  induction h with
  | nil => rfl
  | cons hatom _ ih => rw [Formula.shift, shift_eq_of_atoms hatom, ih]

theorem shift_lawful : (shift count).Lawful := Displacement.lawful shift_eq_of_rows

end Pairing

/-! ## The formula and what stands below it -/

variable {front back : String} {options : ReadingOptions} {formula : Formula}

theorem row_below (back : String) (hexact : options.fillMissing = false)
    (hread : Formula.readUntilError front options = .ok formula) :
    let source := front ++ "\n" ++ back
    ∃ bound s, (significantItems back).length < bound ∧
      s.rest = (significantItems back).map (Item.shift (front.utf8ByteSize + 1)) ∧
      s.reported = [] ∧
      (Readers.upTo ((significantItems source).length + 1)).row (.ofSource .collect options source)
          [] { rest := significantItems source } =
        (Readers.upTo bound).row (.ofSource .collect options source) formula.reverse s := by
  intro source
  obtain ⟨-, hnest, lexemes, hitems, hrow⟩ :=
    (Formula.readUntilError_eq_ok_iff hexact).mp hread
  have hline : significantItems source = significantItems front ++
      (significantItems back).map (Item.shift (front.utf8ByteSize + 1)) :=
    significantItems_line (significantItems_eq_lexemes_iff.mp ⟨lexemes, hitems⟩)
  let s : State := {
    rest := (significantItems back).map (Item.shift (front.utf8ByteSize + 1))
    lastEnd := Lexeme.endOf 0 lexemes }
  have htakes : State.Takes { rest := significantItems source } lexemes s :=
    ⟨by rw [hline, hitems], rfl, rfl⟩
  let context : Context := .ofSource .collect options source
  have hsteps : Steps context.inIndex [] lexemes formula.reverse := hrow.steps
  have hroom : Formula.nest formula.reverse ≤ context.room := by
    rw [Formula.nest_reverse]
    exact hnest
  obtain ⟨bound, hbound, hgoes⟩ :=
    Readers.row_of_steps hsteps hroom htakes (Nat.lt_succ_self _)
  rw [List.length_map] at hbound
  exact ⟨bound, s, hbound, rfl, rfl, hgoes⟩

theorem Pairing.shift_first (bound : Nat) {c c' : Context} {l l' : Lexeme}
    (h : (shift count).contexts (bound + 1) c c') (hl : (shift count).lexemes l l') :
    (shift count).Runs ((shift count).Within bound)
      ((Readers.upTo bound).lexemeStep c l [] >>= (Readers.upTo bound).row c)
      ((Readers.upTo bound).lexemeStep c' l' [] >>= (Readers.upTo bound).row c')
      fun f f' s s' => (shift count).Rows f f' ∧ (shift count).states s s' := by
  have paired := paired_iterate (@shift_lawful count) bound .idle .idle
  rw [← Readers.upTo_eq_iterate] at paired
  apply (Paired.lexemeStep shift_lawful paired h hl .nil).seq
  intro atoms atoms' hatoms
  exact (paired.row h hatoms).weaken (fun _ _ => id) fun _ _ _ _ ht => ⟨ht.1.1, ht.1.2.1⟩

theorem Pairing.Outcomes.of_extends {P : Pairing} {extend : List Atom → List Atom}
    {read read' whole : Reading (List Atom)} {s s' : State}
    {after : List Atom → List Atom → State → State → Prop} (hextends : Extends extend read' whole)
    (h : P.Outcomes after (read s) (read' s')) :
    P.Outcomes (fun atoms atoms' t t' => ∃ own, atoms' = extend own ∧ after atoms own t t')
      (read s) (whole s') := by
  rcases h.returned_or_stopped with
    ⟨atoms, own, t, t', hread, hown, hafter⟩ | ⟨e, e', t, t', hread, hown, hstopped⟩
  · rw [hread, (hextends.of_ok hown).2]
    exact ⟨own, rfl, hafter⟩
  · rw [hread, hextends.of_error hown]
    exact hstopped

theorem Readers.root_of_addsAtom {context : Context} {levels bound : Nat} {s t : State} {l : Lexeme}
    {rest : List Item} (hgroups : context.groups = [])
    (hgoes : (upTo levels).row context [] s = (upTo (bound + 1)).row context formula.reverse t)
    (hrest : t.rest = .lexeme l :: rest) (hadds : l.token.addsAtom = true) :
    (upTo levels).root context s =
      ((upTo bound).lexemeStep context l formula.reverse >>= (upTo bound).row context)
        (t.advanced l) := by
  have hfirst : (upTo (bound + 1)).row context formula.reverse t = _ :=
    rowStep_of_takes (State.takes_advanced hrest) (Context.not_closes_of_addsAtom hgroups hadds)
  have hextends := extends_formula context formula hadds bound
  rw [root_eq_row, hgoes, hfirst]
  intro f u hrow
  obtain ⟨own, hne, rfl⟩ := hextends.exists_of_ok (hfirst.symm.trans (hgoes.symm.trans hrow))
  simp [hne]

theorem runReading_below (hexact : options.fillMissing = false)
    (hread : Formula.readUntilError front options = .ok formula) {l : Lexeme} {rest : List Item}
    (hback : significantItems back = .lexeme l :: rest) (hadds : l.token.addsAtom = true) :
    let count := front.utf8ByteSize + 1
    (Pairing.shift count).Outcomes
      (fun f f' s s' => f' = formula ++ Formula.shift count f ∧
        List.Forall₂ (Displacement.shift count).Errors s.reported s'.reported)
      (runReading .collect options back) (runReading .collect options (front ++ "\n" ++ back)) := by
  intro count
  obtain ⟨bound, t, hbound, hrest, hreported, hbelow⟩ := row_below back hexact hread
  obtain ⟨lower, rfl⟩ : ∃ lower, bound = lower + 1 := ⟨bound - 1, by omega⟩
  let s : State := { rest := significantItems back }
  let c : Context := .ofSource .collect options back
  let c' : Context := .ofSource .collect options (front ++ "\n" ++ back)
  have hrest' : t.rest = .lexeme (l.shift count) :: rest.map (Item.shift count) := by
    rw [hrest, hback]
    rfl
  -- Both readings go on with the same lexeme, the second one behind the formula.
  have halone : runReading .collect options back =
      ((Readers.upTo lower).lexemeStep c l [] >>= (Readers.upTo lower).row c) (s.advanced l) :=
    (runReading_eq_root .collect options hbound).trans
      (@Readers.root_of_addsAtom [] c _ _ s s _ _ rfl rfl hback hadds)
  have hwhole : runReading .collect options (front ++ "\n" ++ back) =
      ((Readers.upTo lower).lexemeStep c' (l.shift count) formula.reverse >>=
        (Readers.upTo lower).row c') (t.advanced (l.shift count)) :=
    (runReading_eq_root .collect options (Nat.lt_succ_self _)).trans
      (Readers.root_of_addsAtom rfl hbelow hrest' hadds)
  have hcontexts : (Pairing.shift count).contexts (lower + 1) c c' := by
    refine ⟨rfl, ?_⟩
    have hsize : (front ++ "\n" ++ back).utf8ByteSize = back.utf8ByteSize + count := by
      rw [String.utf8ByteSize_append, String.utf8ByteSize_append, Nat.add_comm]
      rfl
    simp only [c, c', Context.displaced, Context.ofSource, Displacement.shift, hsize]
  have hwithin :
      (Pairing.shift count).Within lower (s.advanced l) (t.advanced (l.shift count)) := by
    have hitems := @Displacement.items_shift count rest
    refine ⟨⟨?_, rfl, ?_⟩, ?_⟩
    · simpa [State.advanced, s, hback, hrest'] using hitems
    · rw [show (t.advanced (l.shift count)).reported = t.reported from rfl, hreported]
      exact .nil
    · have hahead : (s.advanced l).ahead + 1 = s.ahead := State.ahead_advanced hback
      have hlength : s.ahead ≤ (significantItems back).length := s.ahead_le_length
      omega
  have hlexemes : (Pairing.shift count).lexemes l (l.shift count) := ⟨rfl, rfl, rfl, rfl⟩
  have houtcomes := Pairing.shift_first lower hcontexts hlexemes _ _ hwithin
  have hadds' : (l.shift count).token.addsAtom = true := hadds
  have hextends := Readers.extends_formula c' formula hadds' lower
  rw [halone, hwhole]
  refine (Pairing.Outcomes.of_extends hextends houtcomes).imp ?_
  rintro f _ u u' - - ⟨f', rfl, hrows, hstates⟩
  exact ⟨by rw [Pairing.shift_eq_of_rows hrows], hstates.2.2⟩

namespace Formula

theorem readAll_below (hexact : options.fillMissing = false)
    (hread : readAll front options = .ok formula) {l : Lexeme}
    (hback : (significantItems back).head? = some (.lexeme l)) (hadds : l.token.addsAtom = true) :
    (∀ below, readAll back options = .ok below →
      readAll (front ++ "\n" ++ back) options =
        .ok (formula ++ shift (front.utf8ByteSize + 1) below)) ∧
    ∀ errors, readAll back options = .error errors →
      readAll (front ++ "\n" ++ back) options =
        .error (errors.map (ParseError.shift (front.utf8ByteSize + 1))) := by
  obtain ⟨rest, hitems⟩ := List.head?_eq_some_iff.mp hback
  have hresults := Displacement.readAll_of_outcomes
    (runReading_below hexact (readAll_eq_ok_iff.mp hread) hitems hadds)
  constructor
  · intro below hbelow
    obtain ⟨_, hwhole, rfl⟩ := hresults.1 below hbelow
    exact hwhole
  · intro errors herrors
    obtain ⟨errors', hwhole, hshifted⟩ := hresults.2 errors herrors
    rw [hwhole, Displacement.errors_shift hshifted]

theorem scripts_below :
    readAll "x^2\ny^3^4" = .error [⟨.duplicateScript .superscript, ⟨7, 8⟩⟩] := by
  have hfront : readAll "x^2" = .ok
      [{ kind := .ordinary, nucleus := "x", span := ⟨0, 3⟩
         superscript := some [.symbol .ordinary "2" ⟨2, 3⟩] }] := by
    decide +kernel
  have hback : readAll "y^3^4" = .error [⟨.duplicateScript .superscript, ⟨3, 4⟩⟩] := by
    decide +kernel
  have hfirst : (significantItems "y^3^4").head? =
      some (.lexeme ⟨.character 'y', ⟨0, 1⟩, "y"⟩) := by
    decide +kernel
  exact (readAll_below rfl hfront hfirst rfl).2 _ hback

end Formula

end TexMath
