import TexMath.Proofs.Grammar.Language
import TexMath.Proofs.Reading.Account
import TexMath.Proofs.Reading.Errors

/-!
# Readings that go on behind errors

Two readings are compared.  One goes through a formula and stops at no error.  The other reads what
is left of its source after errors have been strewn in and the end has been cut off, and records the
errors that it meets.  It keeps up with the first one as far as its items go.  At their end it gives
up all that is open, with errors that say what is missing and no others.
-/

namespace TexMath

variable {α β : Type}

def Cause.isUnfinished : Cause → Bool
  | .unbalancedBraces | .unbalancedBrackets | .missingRight | .missingEnd _ | .missingArgument _
  | .missingDelimiter _ => true
  | _ => false

/-! ## Items with errors strewn in -/

/-- The commands of a fence, behind which a delimiter stands. -/
def Token.isFence : Token → Bool
  | .command name => name == "left" || name == "right"
  | _ => false

inductive Token.IsSymbol : Token → Prop
  | character (c : Char) : IsSymbol (.character c)
  | command {name : String} {template : Template} :
      Command.find? name = some (.atom template) → template.arguments = 0 →
      (∀ usual, template.kind ≠ .largeOperator usual) → IsSymbol (.command name)

inductive Lexeme.Counterpart (l l' : Lexeme) : List ParseError → Prop
  | same : l'.token = l.token → Counterpart l l' []
  | unknown {name : String} : l.token.IsSymbol → l'.token = .command name →
      Command.find? name = none → Counterpart l l' [⟨.unknownCommand name, l'.span⟩]

/-- The second items are the first with errors strewn in.  The flag says whether the next token is
kept, as a delimiter behind the command of its fence is. -/
inductive Disturbed : Bool → List Item → List Item → List ParseError → Prop
  | nil {kept : Bool} : Disturbed kept [] [] []
  | lexeme {kept : Bool} {l l' : Lexeme} {items items' : List Item}
      {own errors : List ParseError} :
      l.Counterpart l' own → (kept = true → l'.token = l.token) →
      Disturbed l.token.isFence items items' errors →
      Disturbed kept (.lexeme l :: items) (.lexeme l' :: items') (own ++ errors)
  | fault {kept : Bool} {items items' : List Item} {error : ParseError}
      {errors : List ParseError} :
      Disturbed kept items items' errors →
      Disturbed kept items (.fault error :: items') (error :: errors)

variable {kept : Bool} {items items' : List Item} {errors : List ParseError}

namespace Disturbed

theorem relax (h : Disturbed kept items items' errors) : Disturbed false items items' errors := by
  induction h with
  | nil => exact .nil
  | lexeme hcounterpart _ hrest _ => exact .lexeme hcounterpart nofun hrest
  | fault _ ih => exact .fault ih

theorem spans_sublist (h : Disturbed kept items items' errors) :
    (errors.map ParseError.span).Sublist (items'.map Item.span) := by
  induction h with
  | nil => exact .slnil
  | lexeme hcounterpart _ _ ih =>
      cases hcounterpart with
      | same _ => exact ih.cons _
      | unknown _ _ _ => exact ih.cons_cons _
  | fault _ ih => exact ih.cons_cons _

theorem exists_later (h : Disturbed kept items items' errors) :
    ∃ later, errors = (splitFaults items').1 ++ later ∧
      Disturbed kept items (splitFaults items').2 later := by
  induction h with
  | nil => exact ⟨[], rfl, .nil⟩
  | lexeme hcounterpart hsame hrest _ => exact ⟨_, rfl, .lexeme hcounterpart hsame hrest⟩
  | fault _ ih =>
      obtain ⟨later, rfl, hrest⟩ := ih
      exact ⟨later, rfl, hrest⟩

theorem behind {front : List Lexeme}
    (h : Disturbed (front.foldl (fun _ lexeme => lexeme.token.isFence) kept) items items' errors) :
    Disturbed kept (front.map .lexeme ++ items) (front.map .lexeme ++ items') errors := by
  induction front generalizing kept with
  | nil => exact h
  | cons lexeme front ih => exact .lexeme (.same rfl) (fun _ => rfl) (ih h)

end Disturbed

/-! ## Tokens that decide the same -/

/-- The token is neither a mark nor a directive, and opens nothing. -/
inductive Token.IsPlain : Token → Prop
  | character (c : Char) : IsPlain (.character c)
  | command {name : String} : name ∉ Context.directives → name ≠ "left" → IsPlain (.command name)

namespace Command

theorem notMem_directives {name : String} (h : ∀ command, find? name = some command →
    ∃ template, command = .atom template) : name ∉ Context.directives ∧ name ≠ "left" := by
  have hne : ∀ {other command}, find? other = some command →
      (∀ template, command ≠ .atom template) → name ≠ other := by
    rintro other command hfind hother rfl
    obtain ⟨template, rfl⟩ := h command hfind
    exact hother template rfl
  simp only [Context.directives, List.mem_cons, List.not_mem_nil, or_false, not_or]
  exact ⟨⟨hne find?_right (by simp), hne find?_limits (by simp), hne find?_nolimits (by simp),
    hne find?_newRow (by simp)⟩, hne find?_left (by simp)⟩

end Command

theorem Token.IsSymbol.isPlain {token : Token} (h : token.IsSymbol) : token.IsPlain := by
  cases h with
  | character c => exact .character c
  | command hfind _ _ =>
      obtain ⟨hdirective, hleft⟩ := Command.notMem_directives fun command hcommand =>
        ⟨_, Option.some.inj (hcommand.symm.trans hfind)⟩
      exact .command hdirective hleft

theorem Token.isPlain_of_unknown {name : String} (h : Command.find? name = none) :
    (Token.command name).IsPlain := by
  obtain ⟨hdirective, hleft⟩ := Command.notMem_directives fun command hcommand => by
    rw [h] at hcommand
    cases hcommand
  exact .command hdirective hleft

namespace Token.IsPlain

variable {token : Token} (h : token.IsPlain)
include h

theorem not_closes (context : Context) : context.closes token = false := by
  cases h with
  | character c => rfl
  | command hdirective _ =>
      simp only [Context.directives, List.mem_cons, not_or] at hdirective
      simp [Context.closes, hdirective]

theorem startsArgument (context : Context) : context.startsArgument token = true := by
  have hcloses := h.not_closes context
  cases h with
  | character c => rfl
  | command hdirective _ =>
      simp [Context.startsArgument, hcloses, hdirective]

theorem script?_eq : token.script? = none := by cases h <;> rfl

end Token.IsPlain

namespace Lexeme.Counterpart

variable {l l' : Lexeme} {own : List ParseError} (h : l.Counterpart l' own)
include h

theorem agree {γ : Type} {decides : Token → γ} {value : γ}
    (hplain : ∀ token : Token, token.IsPlain → decides token = value) :
    decides l'.token = decides l.token := by
  cases h with
  | same htoken => rw [htoken]
  | unknown hsymbol htoken hfind =>
      rw [hplain _ hsymbol.isPlain, htoken, hplain _ (Token.isPlain_of_unknown hfind)]

theorem token_eq_iff {token : Token} (hplain : ¬token.IsPlain) :
    l'.token = token ↔ l.token = token := by
  have hother : ∀ found : Token, found.IsPlain → (found = token) = False :=
    fun found hfound => eq_false fun heq => hplain (heq ▸ hfound)
  exact (h.agree hother).to_iff

theorem own_eq_nil (hsame : l'.token = l.token) : own = [] := by
  cases h with
  | same _ => rfl
  | unknown hsymbol htoken hfind =>
      rw [← hsame, htoken] at hsymbol
      cases hsymbol with
      | command hfound _ _ =>
          rw [hfind] at hfound
          cases hfound

theorem same_of_not_plain (hplain : ¬l.token.IsPlain) : l'.token = l.token ∧ own = [] := by
  cases h with
  | same htoken => exact ⟨htoken, rfl⟩
  | unknown hsymbol _ _ => exact absurd hsymbol.isPlain hplain

end Lexeme.Counterpart

/-! ## The two readings -/

variable {tail : List Item} {all own : List ParseError} {context : Context} {size : Nat}
  {l l' : Lexeme} {s s' : State}

/-- The second reading is where the first one is, without the tail of its items.  It has reported
all of the errors but for the pending ones and those ahead. -/
def State.Tracks (tail : List Item) (all : List ParseError) (kept : Bool)
    (pending : List ParseError) (s s' : State) : Prop :=
  ∃ items errors, s.rest = items ++ tail ∧ Disturbed kept items s'.rest errors ∧
    s'.reported.reverse ++ (pending ++ errors) = all

inductive State.Abreast (tail : List Item) (all : List ParseError) (l l' : Lexeme)
    (own : List ParseError) (s s' : State) : Prop
  | ended : tail = [] → s.rest = [] → s'.rest = [] → s'.reported.reverse = all →
      l.token = .sourceEnd → Abreast tail all l l' own s s'
  | ahead {items items' : List Item} {errors : List ParseError} :
      s.rest = .lexeme l :: (items ++ tail) → s'.rest = .lexeme l' :: items' →
      Disturbed l.token.isFence items items' errors →
      s'.reported.reverse ++ (own ++ errors) = all → Abreast tail all l l' own s s'

/-- No item remains, and nothing but missing ends has been reported besides all of the errors. -/
structure State.Ended (all : List ParseError) (s : State) : Prop where
  rest : s.rest = []
  reported : ∃ missing, s.reported = missing ++ all.reverse ∧
    ∀ error ∈ missing, error.cause.isUnfinished = true

theorem State.Tracks.relax {pending : List ParseError}
    (h : State.Tracks tail all kept pending s s') : State.Tracks tail all false pending s s' :=
  h.imp fun _ => Exists.imp fun _ htracks => ⟨htracks.1, htracks.2.1.relax, htracks.2.2⟩

theorem State.Abreast.tracks (h : State.Abreast tail all l l' own s s')
    (hl : l.Counterpart l' own) : State.Tracks tail all false [] s s' := by
  cases h with
  | ended htail hrest hrest' hall _ =>
      refine ⟨[], [], by rw [hrest, htail]; rfl, ?_, by simpa using hall⟩
      rw [hrest']
      exact .nil
  | ahead hrest hrest' hbehind hall =>
      refine ⟨.lexeme l :: _, _, hrest, ?_, hall⟩
      rw [hrest']
      exact .lexeme hl nofun hbehind

namespace Reading

def Succeeds (read : Reading α) : Prop := ∃ s a t, read s = .ok a t

def Finishes (all : List ParseError) (read : Reading α) : Prop :=
  ∀ s : State, s.Ended all → ∃ a t, read s = .ok a t ∧ t.Ended all

/-- Where the first reading returns, the second one does so too.  Either it does with a value as
stated and has reported the errors that it has passed, or it has come to the end of its items. -/
def Survives (tail : List Item) (all : List ParseError) (before : State → State → Prop)
    (read read' : Reading α) (values : α → α → Prop) : Prop :=
  ∀ s s', before s s' → ∀ a t, read s = .ok a t → ∃ a' t', read' s' = .ok a' t' ∧
    (values a a' ∧ State.Tracks tail all false [] t t' ∨ tail ≠ [] ∧ t'.Ended all)

namespace Finishes

variable {read : Reading α} {next : α → Reading β}

theorem pure (a : α) : Finishes all (pure a) := fun s hs => ⟨a, s, rfl, hs⟩

theorem bind (h : Finishes all read) (hnext : ∀ a, Finishes all (next a)) :
    Finishes all (read >>= next) := by
  intro s hs
  obtain ⟨a, middle, hread, hmiddle⟩ := h s hs
  obtain ⟨b, t, hrest, ht⟩ := hnext a middle hmiddle
  exact ⟨b, t, (bind_of_ok hread next).trans hrest, ht⟩

theorem map (h : Finishes all read) (f : α → β) :
    Finishes all (read >>= fun a => Pure.pure (f a)) := h.bind fun a => .pure (f a)

theorem map_lastEnd (h : Finishes all read) (f : α → Nat → β) :
    Finishes all (read >>= fun a => lastEnd >>= fun stop => Pure.pure (f a stop)) :=
  h.bind fun a s hs => ⟨f a s.lastEnd, s, rfl, hs⟩

theorem peek_bind {next : Lexeme → Reading β}
    (hnext : Finishes all (next (.ending context.sourceEnd))) :
    Finishes all (context.peek >>= next) := by
  intro s hs
  have hclear : (splitFaults s.rest).1 = [] := by rw [hs.rest]; rfl
  rw [bind_of_ok (Context.peek_of_nil context hclear), hs.rest]
  exact hnext s hs

theorem inGroup {closer : Closer} {place : Span} {inner : Context → Reading α}
    (hroom : context.depth < context.options.maxDepth)
    (h : Finishes all (inner (context.inside closer))) :
    Finishes all (context.inGroup closer place inner) := by
  rwa [Context.inGroup_of_lt hroom]

theorem report_bind (hmode : context.mode = .collect) {error : ParseError}
    {next : Unit → Reading β} (herror : error.cause.isUnfinished = true)
    (hnext : Finishes all (next ())) : Finishes all (context.report error >>= next) := by
  intro s hs
  rw [bind_of_ok (Context.report_collect hmode error s)]
  obtain ⟨missing, hreported, hmissing⟩ := hs.reported
  refine hnext _ ⟨hs.rest, error :: missing, ?_, List.forall_mem_cons.mpr ⟨herror, hmissing⟩⟩
  exact congrArg (error :: ·) hreported

end Finishes

namespace Survives

variable {before : State → State → Prop} {read read' other other' : Reading α}
  {values : α → α → Prop} {next next' : α → Reading β} {results : β → β → Prop}

theorem pure {a a' : α} (hbefore : ∀ s s', before s s' → State.Tracks tail all false [] s s')
    (h : values a a') : Survives tail all before (pure a) (pure a') values := by
  intro s s' hs b t hread
  obtain ⟨rfl, rfl⟩ := pure_eq_ok.mp hread
  exact ⟨a', s', rfl, .inl ⟨h, hbefore _ _ hs⟩⟩

/-- What follows goes on where the first step has come to the end, and then it has to finish. -/
theorem bind (h : Survives tail all before read read' values)
    (hnext : ∀ a a', values a a' →
      Survives tail all (State.Tracks tail all false []) (next a) (next' a') results)
    (hends : ∀ a, Succeeds (next a) → ∀ a', Finishes all (next' a')) :
    Survives tail all before (read >>= next) (read' >>= next') results := by
  intro s s' hs b t hread
  obtain ⟨a, middle, hfirst, hrest⟩ := bind_eq_ok.mp hread
  obtain ⟨a', middle', hfirst', hmiddle⟩ := h s s' hs a middle hfirst
  rw [bind_of_ok hfirst']
  rcases hmiddle with ⟨hvalues, hmiddle⟩ | ⟨htail, hended⟩
  · exact hnext a a' hvalues middle middle' hmiddle b t hrest
  · obtain ⟨b', t', hrest', ht'⟩ := hends a ⟨middle, b, t, hrest⟩ a' middle' hended
    exact ⟨b', t', hrest', .inr ⟨htail, ht'⟩⟩

theorem map (h : Survives tail all before read read' values) {f f' : α → β}
    (hvalues : ∀ a a', values a a' → results (f a) (f' a')) :
    Survives tail all before (read >>= fun a => Pure.pure (f a))
      (read' >>= fun a => Pure.pure (f' a)) results :=
  h.bind (fun a a' ha => .pure (fun _ _ => id) (hvalues a a' ha)) fun _ _ a' => .pure (f' a')

theorem map_lastEnd (h : Survives tail all before read read' values) {f f' : α → Nat → β}
    (hvalues : ∀ a a' stop stop', values a a' → results (f a stop) (f' a' stop')) :
    Survives tail all before (read >>= fun a => lastEnd >>= fun stop => Pure.pure (f a stop))
      (read' >>= fun a => lastEnd >>= fun stop => Pure.pure (f' a stop)) results := by
  refine h.bind (fun a a' ha s s' hs b t hread => ?_) fun _ _ a' s hs => ⟨_, s, rfl, hs⟩
  exact pure (fun _ _ => id) (hvalues a a' s.lastEnd s'.lastEnd ha) s s' hs b t hread

theorem weaken {before' : State → State → Prop}
    (h : Survives tail all before read read' values)
    (hbefore : ∀ s s', before' s s' → before s s') :
    Survives tail all before' read read' values :=
  fun s s' hs => h s s' (hbefore s s' hs)

theorem of_not (h : ¬Succeeds read) : Survives tail all before read read' values :=
  fun s _ _ a t hread => absurd ⟨s, a, t, hread⟩ h

theorem ite {condition condition' : Prop} [Decidable condition] [Decidable condition']
    (hsame : condition' ↔ condition)
    (h : condition → Survives tail all before read read' values)
    (hother : ¬condition → Survives tail all before other other' values) :
    Survives tail all before (if condition then read else other)
      (if condition' then read' else other') values := by
  by_cases hcondition : condition
  · rw [if_pos hcondition, if_pos (hsame.mpr hcondition)]
    exact h hcondition
  · rw [if_neg hcondition, if_neg (mt hsame.mp hcondition)]
    exact hother hcondition

theorem advance_bind {next next' : Unit → Reading β} (htoken : l.token ≠ .sourceEnd)
    (hnext : Survives tail all (State.Tracks tail all l.token.isFence own) (next ()) (next' ())
      results) :
    Survives tail all (State.Abreast tail all l l' own) (Context.advance l >>= next)
      (Context.advance l' >>= next') results := by
  intro s s' hs b t hread
  cases hs with
  | ended _ _ _ _ hend => exact absurd hend htoken
  | @ahead items items' errors hrest hrest' hbehind hall =>
      have hitems : (s.advanced l).rest = items ++ tail := congrArg List.tail hrest
      have hitems' : (s'.advanced l').rest = items' := congrArg List.tail hrest'
      have htracks : State.Tracks tail all l.token.isFence own (s.advanced l) (s'.advanced l') :=
        ⟨items, errors, hitems, hitems'.symm ▸ hbehind, hall⟩
      exact hnext _ _ htracks b t hread

variable (first : context.mode = .firstError)
include first

theorem report_bind {error : ParseError} {next : Unit → Reading β} {read' : Reading β} :
    Survives tail all before (context.report error >>= next) read' results := by
  apply of_not
  rintro ⟨s, a, t, hread⟩
  exact Context.report_bind_ne_ok first error next a hread

theorem peek_bind {next next' : Lexeme → Reading β}
    (hnext : ∀ l l' own, l.Counterpart l' own → (kept = true → l'.token = l.token) →
      Survives tail all (State.Abreast tail all l l' own) (next l) (next' l') results)
    (hends : ∀ l, Succeeds (next l) → Finishes all ((context.recording size).peek >>= next')) :
    Survives tail all (State.Tracks tail all kept []) (context.peek >>= next)
      ((context.recording size).peek >>= next') results := by
  rintro s s' ⟨items, errors, hitems, hdisturbed, hall⟩ b t hread
  obtain ⟨-, hrest⟩ := (Context.peek_bind_eq_ok first).mp hread
  obtain ⟨later, rfl, hlater⟩ := hdisturbed.exists_later
  have hreported : s'.passed.reported.reverse ++ later = all := by
    rw [← hall]
    simp [State.passed]
  have hclear : (splitFaults s'.passed.rest).1 = [] := splitFaults_splitFaults s'.rest
  have hpeek : ((context.recording size).peek >>= next') s' =
      next' ((context.recording size).upcoming s'.passed.rest) s'.passed :=
    bind_of_ok (Context.peek_collect rfl s') next'
  change Disturbed kept items s'.passed.rest later at hlater
  generalize hitems' : s'.passed.rest = items' at hlater hclear hpeek
  cases hlater with
  | nil =>
      rw [List.append_nil] at hreported
      by_cases htail : tail = []
      · have hend : s.rest = [] := by rw [hitems, htail]; rfl
        rw [hpeek]
        exact hnext _ _ [] (.same (by rw [hend]; rfl)) (fun _ => by rw [hend]; rfl) s s'.passed
          (.ended htail hend hitems' hreported (by rw [hend]; rfl)) b t hrest
      · have hended : s'.passed.Ended all := by
          refine ⟨hitems', [], ?_, by simp⟩
          rw [← hreported, List.reverse_reverse, List.nil_append]
        obtain ⟨b', t', hread', ht'⟩ := hends _ ⟨s, b, t, hrest⟩ s'.passed hended
        rw [bind_of_ok (Context.peek_of_nil _ (by rw [hitems']; rfl)), hitems'] at hread'
        exact ⟨b', t', hpeek.trans hread', .inr ⟨htail, ht'⟩⟩
  | lexeme hcounterpart hsame hbehind =>
      rw [hitems, List.cons_append] at hrest
      rw [hpeek]
      exact hnext _ _ _ hcounterpart hsame s s'.passed
        (.ahead hitems hitems' hbehind hreported) b t hrest
  | fault => cases hclear

theorem bind_peek {next next' : α → Lexeme → Reading β}
    (h : Survives tail all before read read' values)
    (hnext : ∀ a a' l l' own, values a a' → l.Counterpart l' own →
      Survives tail all (State.Abreast tail all l l' own) (next a l) (next' a' l') results)
    (hends : ∀ a', Finishes all ((context.recording size).peek >>= next' a')) :
    Survives tail all before (read >>= fun a => context.peek >>= next a)
      (read' >>= fun a => (context.recording size).peek >>= next' a) results :=
  h.bind
    (fun a a' ha => peek_bind first (fun l l' own hl _ => hnext a a' l l' own ha hl)
      fun _ _ => hends a')
    fun _ _ a' => hends a'

theorem deeper {place place' : Span} {inner inner' : Context → Reading α}
    (h : ∀ deep : Context, deep.mode = .firstError →
      Survives tail all before (inner deep) (inner' (deep.recording size)) values) :
    Survives tail all before (context.deeper place inner)
      ((context.recording size).deeper place' inner') values := by
  unfold Context.deeper
  refine ite Iff.rfl (fun _ => h _ first) fun _ => of_not ?_
  rintro ⟨s, a, t, hread⟩
  exact throw_ne_ok _ a hread

theorem inGroup {closer : Closer} {place place' : Span} {inner inner' : Context → Reading α}
    (h : ∀ deep : Context, deep.mode = .firstError →
      Survives tail all before (inner deep) (inner' (deep.recording size)) values) :
    Survives tail all before (context.inGroup closer place inner)
      ((context.recording size).inGroup closer place' inner') values := by
  have hgroups : ({ context with groups := closer :: context.groups } : Context).mode =
    .firstError := first
  exact deeper hgroups h

end Survives

end Reading

/-! ## Atoms that take the same scripts and limits -/

/-- Where the first atom takes a script or limits, the second one does so too. -/
structure Atom.Resembles (atom atom' : Atom) : Prop where
  kind : atom'.kind = atom.kind ∨
    atom'.kind = .error ∧ ∀ usual, atom.kind ≠ .largeOperator usual
  scripts : ∀ which, (atom'.script which).isSome = (atom.script which).isSome

abbrev Formula.Resembles : Formula → Formula → Prop := List.Forall₂ Atom.Resembles

namespace Atom.Resembles

theorem of_kind {atom atom' : Atom} (hkind : atom'.kind = atom.kind)
    (hfree : atom.hasScripts = false) (hfree' : atom'.hasScripts = false) :
    atom.Resembles atom' := by
  rw [hasScripts, Bool.or_eq_false_iff] at hfree hfree'
  refine ⟨.inl hkind, fun which => ?_⟩
  cases which with
  | superscript => exact hfree'.1.trans hfree.1.symm
  | subscript => exact hfree'.2.trans hfree.2.symm

variable {atom atom' : Atom} (h : atom.Resembles atom')
include h

theorem scriptProblem? {which : Script} (hnone : Readers.scriptProblem? atom which = none) :
    Readers.scriptProblem? atom' which = none := by
  unfold Readers.scriptProblem? at hnone ⊢
  rw [h.scripts which]
  rcases h.kind with hkind | ⟨hkind, -⟩
  · rwa [hkind]
  · rw [hkind]
    split at hnone
    · cases hnone
    · split at hnone
      · cases hnone
      · rename_i hfree
        rw [if_neg hfree]
        rfl

theorem withScript (which : Script) (content content' : Formula) (place place' : Span) :
    (atom.withScript which content place).Resembles (atom'.withScript which content' place') where
  kind := by simpa using h.kind
  scripts other := by
    by_cases hother : other = which
    · subst hother
      cases other <;> rfl
    · have hscripts := h.scripts other
      rw [← Atom.script_setScript_of_ne atom (some content) hother,
        ← Atom.script_setScript_of_ne atom' (some content') hother] at hscripts
      cases other <;> exact hscripts

theorem withLimits (value : Bool) (place place' : Span) :
    (atom.withLimits value place).Resembles (atom'.withLimits value place') where
  kind := .inl rfl
  scripts which := by
    cases which with
    | superscript => exact h.scripts .superscript
    | subscript => exact h.scripts .subscript

end Atom.Resembles

end TexMath
