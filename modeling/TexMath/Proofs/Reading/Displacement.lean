import TexMath.Proofs.Reading.Account
import TexMath.Proofs.Reading.Errors
import Mathlib.Order.MinMax

/-!
# Items at other places

A reading asks where its items lie only to put their places into spans and to order its errors.  So
items that lie elsewhere, in the same order, are read in step, with the same causes of errors in the
same order.
-/

namespace TexMath

open Reading

/-- Where what lies at some place of a source lies in another. -/
structure Displacement where
  start : Nat → Nat
  stop : Nat → Nat → Prop
  strictMono : StrictMono start
  stop_start : ∀ offset, stop offset (start offset)
  stop_max : ∀ {a a' b b' : Nat}, stop a a' → stop b b' → stop (max a b) (max a' b')

def Context.displaced (context : Context) (d : Displacement) : Context :=
  { context with sourceEnd := d.start context.sourceEnd }

namespace Displacement

variable (d : Displacement)

structure Spans (span span' : Span) : Prop where
  start : span'.start = d.start span.start
  stop : d.stop span.stop span'.stop

structure Lexemes (lexeme lexeme' : Lexeme) : Prop where
  token : lexeme'.token = lexeme.token
  text : lexeme'.text = lexeme.text
  span : d.Spans lexeme.span lexeme'.span

structure Errors (error error' : ParseError) : Prop where
  cause : error'.cause = error.cause
  span : d.Spans error.span error'.span

inductive Items : Item → Item → Prop
  | lexeme {lexeme lexeme' : Lexeme} :
      d.Lexemes lexeme lexeme' → Items (.lexeme lexeme) (.lexeme lexeme')
  | fault {error error' : ParseError} : d.Errors error error' → Items (.fault error) (.fault error')

variable {d} {context : Context} {items items' : List Item} {errors errors' : List ParseError}
  {error error' : ParseError} {s s' : State}

theorem Spans.point {offset offset' : Nat} (h : offset' = d.start offset) :
    d.Spans (.point offset) (.point offset') := by
  subst h
  exact ⟨rfl, d.stop_start offset⟩

theorem Spans.cover {a a' b b' : Span} (ha : d.Spans a a') (hb : d.Spans b b') :
    d.Spans (a.cover b) (a'.cover b') where
  start := by
    simp only [Span.cover, ha.start, hb.start]
    exact d.strictMono.monotone.map_min.symm
  stop := d.stop_max ha.stop hb.stop

/-! ## The order of the errors -/

theorem Errors.insert (herror : d.Errors error error') (h : List.Forall₂ d.Errors errors errors') :
    List.Forall₂ d.Errors (ParseError.insert error errors) (ParseError.insert error' errors') := by
  induction h with
  | nil => exact .cons herror .nil
  | @cons first first' rest rest' hfirst hrest ih =>
      have hle : error'.span.start ≤ first'.span.start ↔ error.span.start ≤ first.span.start := by
        rw [herror.span.start, hfirst.span.start]
        exact d.strictMono.le_iff_le
      simp only [ParseError.insert, hle]
      split
      · exact .cons herror (.cons hfirst hrest)
      · exact .cons hfirst ih

theorem Errors.byStart (h : List.Forall₂ d.Errors errors errors') :
    List.Forall₂ d.Errors (ParseError.byStart errors) (ParseError.byStart errors') := by
  induction h with
  | nil => exact .nil
  | cons herror _ ih => exact herror.insert ih

theorem Errors.causes (h : List.Forall₂ d.Errors errors errors') :
    errors'.map ParseError.cause = errors.map ParseError.cause :=
  (map_eq_map_of_forall₂ (fun _ _ herror => herror.cause.symm) h).symm

/-! ## The next lexeme -/

theorem splitFaults_displaced (h : List.Forall₂ d.Items items items') :
    List.Forall₂ d.Errors (splitFaults items).1 (splitFaults items').1 ∧
      List.Forall₂ d.Items (splitFaults items).2 (splitFaults items').2 := by
  induction h with
  | nil => exact ⟨.nil, .nil⟩
  | cons hitem hrest ih =>
      cases hitem with
      | lexeme hlexeme => exact ⟨.nil, .cons (.lexeme hlexeme) hrest⟩
      | fault herror => exact ⟨.cons herror ih.1, ih.2⟩

theorem upcoming_displaced (context : Context) (h : List.Forall₂ d.Items items items') :
    d.Lexemes (context.upcoming items) ((context.displaced d).upcoming items') := by
  have hending : d.Lexemes ⟨.sourceEnd, .point context.sourceEnd, ""⟩
      ⟨.sourceEnd, .point (d.start context.sourceEnd), ""⟩ := ⟨rfl, rfl, .point rfl⟩
  cases h with
  | nil => exact hending
  | cons hitem _ =>
      cases hitem with
      | lexeme hlexeme => exact hlexeme
      | fault _ => exact hending

/-! ## The two readings -/

variable (d) in
/-- A reading that records errors, and the same reading of the items at their other places. -/
def pairing (contents : Formula → Formula → Prop) : Pairing where
  contexts _ c c' := c.mode = .collect ∧ c' = c.displaced d
  lexemes := d.Lexemes
  spans := d.Spans
  contents := contents
  states s s' := List.Forall₂ d.Items s.rest s'.rest ∧ d.stop s.lastEnd s'.lastEnd ∧
    List.Forall₂ d.Errors s.reported s'.reported
  stopped e s e' s' := d.Errors e e' ∧ List.Forall₂ d.Errors s.reported s'.reported

variable {contents : Formula → Formula → Prop}

theorem report_displaced (hmode : context.mode = .collect) (herror : d.Errors error error')
    (h : (d.pairing contents).states s s') :
    (d.pairing contents).Outcomes (fun _ _ => (d.pairing contents).states)
      (context.report error s) ((context.displaced d).report error' s') := by
  have hmode' : (context.displaced d).mode = .collect := hmode
  rw [Context.report_collect hmode, Context.report_collect hmode']
  exact ⟨h.1, h.2.1, .cons herror h.2.2⟩

theorem peek_displaced (hmode : context.mode = .collect) (h : (d.pairing contents).states s s') :
    (d.pairing contents).Outcomes
      (fun next next' t t' => d.Lexemes next next' ∧ (d.pairing contents).states t t')
      (context.peek s) ((context.displaced d).peek s') := by
  have hmode' : (context.displaced d).mode = .collect := hmode
  rw [Context.peek_collect hmode, Context.peek_collect hmode']
  obtain ⟨hrest, hend, hreported⟩ := h
  obtain ⟨hfaults, hitems⟩ := splitFaults_displaced hrest
  exact ⟨upcoming_displaced context hitems, hitems, hend,
    List.rel_append (List.rel_reverse hfaults) hreported⟩

variable (hcontents : ∀ {f f' : Formula}, (d.pairing contents).Rows f f' → contents f f')
include hcontents

theorem missingArgument_displaced (hmode : context.mode = .collect) {next next' : Lexeme}
    (hnext : d.Lexemes next next') (command : String) (h : (d.pairing contents).states s s') :
    (d.pairing contents).Outcomes
      (fun f f' t t' => contents f f' ∧ (d.pairing contents).states t t')
      (Readers.missingArgument context command next.span s)
      (Readers.missingArgument (context.displaced d) command next'.span s') := by
  have hplaceholder : (d.pairing contents).Atoms
      (.symbol .placeholder "□" (.point next.span.start))
      (.symbol .placeholder "□" (.point next'.span.start)) :=
    .structured .nil (Spans.point hnext.span.start)
  have hfill : (context.displaced d).options = context.options := rfl
  unfold Readers.missingArgument
  rw [hfill]
  split
  · exact ⟨hcontents (.cons hplaceholder .nil), h⟩
  · have hreport : (d.pairing contents).Runs (d.pairing contents).states
        (context.report ⟨.missingArgument command, next.span⟩)
        ((context.displaced d).report ⟨.missingArgument command, next'.span⟩)
        fun _ _ => (d.pairing contents).states :=
      fun _ _ ht => report_displaced hmode ⟨rfl, hnext.span⟩ ht
    exact hreport.bind (fun _ _ => .pure fun _ _ ht => ⟨hcontents .nil, ht⟩) _ _ h

theorem lawful : (d.pairing contents).Lawful where
  token h := by rw [h.token]
  groups h := by rw [h.2]; rfl
  fewer h := h
  room h := by rw [h.2]; rfl
  deeper groups h _ := by
    obtain ⟨hmode, rfl⟩ := h
    exact ⟨hmode, rfl⟩
  tooDeep _ _ hl hs := ⟨⟨rfl, hl.span⟩, hs.2.2⟩
  lexemeSpan h := h.span
  pointSpan h := .point h.span.start
  stops hs _ _ hl := ⟨hl.span.start, hs.2.1⟩
  cover := .cover
  contents := hcontents
  report h hl _ hs := by
    obtain ⟨hmode, rfl⟩ := h
    exact report_displaced hmode ⟨rfl, hl.span⟩ hs
  invalidDelimiter h hl _ hs := by
    obtain ⟨hmode, rfl⟩ := h
    exact report_displaced hmode ⟨by rw [hl.text], hl.span⟩ hs
  peek h hs := by
    obtain ⟨hmode, rfl⟩ := h
    exact peek_displaced hmode hs
  advance hl hs hrest hrest' := by
    obtain ⟨hitems, -, hreported⟩ := hs
    rw [hrest, hrest'] at hitems
    obtain _ | ⟨-, hitems⟩ := hitems
    refine ⟨?_, hl.span.stop, hreported⟩
    simpa [State.advanced, hrest, hrest'] using hitems
  missingArgument h hl _ hs := by
    obtain ⟨hmode, rfl⟩ := h
    exact missingArgument_displaced hcontents hmode hl _ hs

/-! ## Whole readings -/

variable {source source' : String} {options : ReadingOptions}

theorem runReading_displaced
    (hitems : List.Forall₂ d.Items (significantItems source) (significantItems source'))
    (hsize : source'.utf8ByteSize = d.start source.utf8ByteSize) (hstop : d.stop 0 0)
    (hallows : options.allowEmpty = true) :
    (d.pairing contents).Outcomes
      (fun f f' s s' => (d.pairing contents).Rows f f' ∧
        List.Forall₂ d.Errors s.reported s'.reported)
      (runReading .collect options source) (runReading .collect options source') := by
  let start : State := { rest := significantItems source }
  have paired := Pairing.paired_iterate (lawful hcontents) ((significantItems source).length + 1)
    .idle .idle
  rw [← Readers.upTo_eq_iterate] at paired
  have hcontexts : (d.pairing contents).contexts ((significantItems source).length + 1)
      (.ofSource .collect options source) (.ofSource .collect options source') := by
    refine ⟨rfl, ?_⟩
    simp only [Context.ofSource, Context.displaced, hsize]
  have hwithin : (d.pairing contents).Within ((significantItems source).length + 1) start
      { rest := significantItems source' } :=
    ⟨⟨hitems, hstop, .nil⟩, Nat.lt_succ_of_le start.ahead_le_length⟩
  have hlength := Nat.lt_succ_self (significantItems source).length
  have hlength' : (significantItems source').length < (significantItems source).length + 1 := by
    rw [← hitems.length_eq]
    exact hlength
  rw [runReading_eq_root .collect options hlength, runReading_eq_root .collect options hlength']
  have hstrict : options.allowEmpty ≠ false := by simp [hallows]
  exact (paired.root hcontexts rfl (fun hfalse => absurd hfalse hstrict) _ _ hwithin).imp
    fun _ _ _ _ _ _ hafter => ⟨hafter.1, hafter.2.1.2.2⟩

omit hcontents

theorem readAll_of_outcomes {values : Formula → Formula → Prop}
    (h : (d.pairing contents).Outcomes
      (fun f f' s s' => values f f' ∧ List.Forall₂ d.Errors s.reported s'.reported)
      (runReading .collect options source) (runReading .collect options source')) :
    (∀ formula, Formula.readAll source options = .ok formula →
      ∃ formula', Formula.readAll source' options = .ok formula' ∧ values formula formula') ∧
    ∀ errors, Formula.readAll source options = .error errors →
      ∃ errors', Formula.readAll source' options = .error errors' ∧
        List.Forall₂ d.Errors errors errors' := by
  constructor
  · intro formula hread
    obtain ⟨s, hrun⟩ := Formula.readUntilError_eq_ok.mp (Formula.readAll_eq_ok_iff.mp hread)
    obtain ⟨hcollect, hnone⟩ := runReading_collect_of_ok hrun
    rw [hcollect] at h
    obtain ⟨formula', s', hcollect', hvalues, hreported⟩ := h.of_ok
    rw [hnone, List.forall₂_nil_left_iff] at hreported
    refine ⟨formula', ?_, hvalues⟩
    simp [Formula.readAll, Formula.collect, hcollect', hreported]
  · intro errors hread
    obtain ⟨hne, rfl⟩ := Formula.readAll_eq_error_iff.mp hread
    have hcollect : List.Forall₂ d.Errors (Formula.collect source options).errors
        (Formula.collect source' options).errors := by
      rw [Formula.collect_errors, Formula.collect_errors]
      apply List.rel_reverse
      rcases h.returned_or_stopped with
        ⟨_, _, s, s', hread, hread', -, hreported⟩ |
        ⟨e, e', s, s', hread, hread', herror, hreported⟩
      · rw [hread, hread']
        exact hreported
      · rw [hread, hread']
        exact .cons herror hreported
    refine ⟨_, Formula.readAll_eq_error_iff.mpr ⟨fun hnil => hne ?_, rfl⟩, Errors.byStart hcollect⟩
    rw [hnil, List.forall₂_nil_right_iff] at hcollect
    exact hcollect

end Displacement

end TexMath
