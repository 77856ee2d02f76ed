import TexMath.Proofs.Formula.Nesting
import TexMath.Proofs.Grammar.Progress
import TexMath.Proofs.Reading.Blame
import TexMath.Proofs.Reading.Names
import TexMath.Proofs.Reading.Rules
import TexMath.Proofs.Symbol.Command
import TexMath.Proofs.Token.Items
import TexMath.Reading.Run
import Mathlib.Data.List.Forall2

/-!
# Two readings side by side

`Pairing` says what two readings have in common while they go through their items in step: the
contexts, the lexemes they meet, what they build and the states they are in.  `Pairing.Lawful` are
the laws of the basic steps, and `Pairing.Runs` says that two readings go in step from states that
have something in common to results that do.
-/

namespace TexMath

variable {α β γ δ : Type}

/-! ## The lexemes that remain -/

namespace State

def ahead (s : State) : Nat := (s.rest.filterMap Item.token?).length

theorem ahead_of_rest {s s' : State} (h : s.rest = s'.rest) : s.ahead = s'.ahead := by
  rw [ahead, h, ahead]

theorem ahead_le_length (s : State) : s.ahead ≤ s.rest.length := List.length_filterMap_le ..

theorem ahead_advanced {s : State} {lexeme : Lexeme} {rest : List Item}
    (h : s.rest = .lexeme lexeme :: rest) : (s.advanced lexeme).ahead + 1 = s.ahead := by
  simp [ahead, advanced, h, Item.token?]

end State

theorem map_fault_append_splitFaults (items : List Item) :
    (splitFaults items).1.map .fault ++ (splitFaults items).2 = items := by
  induction items with
  | nil => rfl
  | cons item items ih =>
      cases item with
      | lexeme lexeme => rfl
      | fault error => exact congrArg (.fault error :: ·) ih

theorem filterMap_token?_splitFaults (items : List Item) :
    (splitFaults items).2.filterMap Item.token? = items.filterMap Item.token? := by
  have hnone : ((splitFaults items).1.map Item.fault).filterMap Item.token? = [] := by
    simp [List.filterMap_eq_nil_iff, Item.token?]
  nth_rewrite 2 [← map_fault_append_splitFaults items]
  rw [List.filterMap_append, hnone, List.nil_append]

theorem splitFaults_splitFaults (items : List Item) :
    (splitFaults (splitFaults items).2).1 = [] := by
  induction items with
  | nil => rfl
  | cons item items ih => cases item <;> simp [splitFaults, ih]

namespace Context

variable {context : Context} {s s' : State}

theorem report_rest {error : ParseError} {done : Unit} (h : context.report error s = .ok done s') :
    s'.rest = s.rest := by
  cases hmode : context.mode with
  | firstError => exact absurd h (report_ne_ok hmode error done)
  | collect =>
      simp only [report, hmode] at h
      cases h
      rfl

theorem forM_report_rest {faults : List ParseError} {done : Unit}
    (h : faults.forM context.report s = .ok done s') : s'.rest = s.rest := by
  induction faults generalizing s with
  | nil =>
      obtain ⟨-, rfl⟩ := Reading.pure_eq_ok.mp h
      rfl
  | cons error faults ih =>
      obtain ⟨_, middle, hreport, hfaults⟩ := Reading.bind_eq_ok.mp h
      rw [ih hfaults, report_rest hreport]

theorem peek_rest {next : Lexeme} (h : context.peek s = .ok next s') :
    s'.rest = (splitFaults s.rest).2 ∧ next = context.upcoming s'.rest := by
  rw [peek_apply] at h
  obtain ⟨_, middle, hfaults, hpure⟩ := Reading.bind_eq_ok.mp h
  obtain ⟨rfl, rfl⟩ := Reading.pure_eq_ok.mp hpure
  have hrest := forM_report_rest hfaults
  exact ⟨hrest, by rw [hrest]⟩

theorem peek_ahead {next : Lexeme} (h : context.peek s = .ok next s') : s'.ahead = s.ahead := by
  rw [State.ahead, (peek_rest h).1, filterMap_token?_splitFaults, State.ahead]

theorem peek_takes {next : Lexeme} (h : context.peek s = .ok next s')
    (htoken : next.token ≠ .sourceEnd) :
    s'.rest = .lexeme next :: (s'.advanced next).rest :=
  (State.takes_upcoming (peek_rest h).2 htoken).rest_eq_cons

theorem missingArgument_rest {command : String} {next : Span} {content : Formula}
    (h : Readers.missingArgument context command next s = .ok content s') : s'.rest = s.rest := by
  unfold Readers.missingArgument at h
  split at h
  · obtain ⟨-, rfl⟩ := Reading.pure_eq_ok.mp h
    rfl
  · obtain ⟨_, middle, hreport, hpure⟩ := Reading.bind_eq_ok.mp h
    obtain ⟨-, rfl⟩ := Reading.pure_eq_ok.mp hpure
    exact report_rest hreport

end Context

/-! ## What two readings have in common -/

theorem map_eq_map_of_forall₂ {related : α → β → Prop} {f : α → γ} {g : β → γ} {as : List α}
    {bs : List β} (hsame : ∀ a b, related a b → f a = g b) (h : List.Forall₂ related as bs) :
    as.map f = bs.map g := by
  induction h with
  | nil => rfl
  | cons hfirst _ ih => rw [List.map_cons, List.map_cons, hsame _ _ hfirst, ih]

structure Pairing where
  /-- The contexts in which fewer lexemes remain than the number. -/
  contexts : Nat → Context → Context → Prop
  lexemes : Lexeme → Lexeme → Prop
  spans : Span → Span → Prop
  /-- The arguments, scripts and cells of two atoms. -/
  contents : Formula → Formula → Prop
  states : State → State → Prop
  /-- The errors that end the readings, and the states in which they do. -/
  stopped : ParseError → State → ParseError → State → Prop

namespace Pairing

variable (P : Pairing)

structure Atoms (a a' : Atom) : Prop where
  kind : a.kind = a'.kind
  nucleus : a.nucleus = a'.nucleus
  arguments : List.Forall₂ P.contents a.arguments a'.arguments
  scripts : ∀ which, Option.Rel P.contents (a.script which) (a'.script which)
  boundaries : a.boundaries = a'.boundaries
  rows : List.Forall₂ (List.Forall₂ P.contents) a.rows a'.rows
  span : P.spans a.span a'.span

abbrev Rows : Formula → Formula → Prop := List.Forall₂ P.Atoms

/-- The ends of two spans that start with lexemes in common. -/
def Stops (stop stop' : Nat) : Prop :=
  ∀ l l', P.lexemes l l' → P.spans ⟨l.span.start, stop⟩ ⟨l'.span.start, stop'⟩

def Outcomes (after : α → β → State → State → Prop) :
    EStateM.Result ParseError State α → EStateM.Result ParseError State β → Prop
  | .ok a t, .ok b t' => after a b t t'
  | .error e t, .error e' t' => P.stopped e t e' t'
  | _, _ => False

def Runs (before : State → State → Prop) (read : Reading α) (read' : Reading β)
    (after : α → β → State → State → Prop) : Prop :=
  ∀ s s', before s s' → P.Outcomes after (read s) (read' s')

def Within (bound : Nat) (s s' : State) : Prop := P.states s s' ∧ s.ahead < bound

def Gives (bound : Nat) (values : α → β → Prop) (a : α) (b : β) (s s' : State) : Prop :=
  values a b ∧ P.Within bound s s'

structure Ahead (bound : Nat) (c c' : Context) (next next' : Lexeme) (s s' : State) : Prop where
  within : P.Within bound s s'
  lexemes : P.lexemes next next'
  clear : (splitFaults s.rest).1 = []
  upcoming : next = c.upcoming s.rest
  upcoming' : next' = c'.upcoming s'.rest

structure Lawful : Prop where
  token : ∀ {l l' : Lexeme}, P.lexemes l l' → l.token.canonical = l'.token.canonical
  groups : ∀ {bound : Nat} {c c' : Context}, P.contexts bound c c' → c.groups = c'.groups
  fewer : ∀ {bound : Nat} {c c' : Context}, P.contexts (bound + 1) c c' → P.contexts bound c c'
  room : ∀ {bound : Nat} {c c' : Context}, P.contexts (bound + 1) c c' →
    (c.depth < c.options.maxDepth ↔ c'.depth < c'.options.maxDepth)
  deeper : ∀ {bound : Nat} {c c' : Context} (groups : List Closer), P.contexts (bound + 1) c c' →
    c.depth < c.options.maxDepth →
    P.contexts bound { c with groups, depth := c.depth + 1 }
      { c' with groups, depth := c'.depth + 1 }
  tooDeep : ∀ {bound : Nat} {c c' : Context} {l l' : Lexeme} {s s' : State},
    P.contexts (bound + 1) c c' → ¬c.depth < c.options.maxDepth → P.lexemes l l' →
    P.states s s' → P.stopped ⟨.nestingTooDeep, l.span⟩ s ⟨.nestingTooDeep, l'.span⟩ s'
  lexemeSpan : ∀ {l l' : Lexeme}, P.lexemes l l' → P.spans l.span l'.span
  pointSpan : ∀ {l l' : Lexeme}, P.lexemes l l' →
    P.spans (.point l.span.start) (.point l'.span.start)
  stops : ∀ {s s' : State}, P.states s s' → P.Stops s.lastEnd s'.lastEnd
  cover : ∀ {a a' b b' : Span}, P.spans a a' → P.spans b b' → P.spans (a.cover b) (a'.cover b')
  contents : ∀ {f f' : Formula}, P.Rows f f' → P.contents f f'
  report : ∀ {bound : Nat} {c c' : Context} {l l' : Lexeme} {cause : Cause} {s s' : State},
    P.contexts bound c c' → P.lexemes l l' → cause.At l → P.states s s' →
    P.Outcomes (fun _ _ => P.states) (c.report ⟨cause, l.span⟩ s) (c'.report ⟨cause, l'.span⟩ s')
  invalidDelimiter : ∀ {bound : Nat} {c c' : Context} {l l' : Lexeme} {s s' : State},
    P.contexts bound c c' → P.lexemes l l' → l.token ≠ .sourceEnd → P.states s s' →
    P.Outcomes (fun _ _ => P.states)
      (c.report ⟨.invalidDelimiter (Text.trimEnd l.text), l.span⟩ s)
      (c'.report ⟨.invalidDelimiter (Text.trimEnd l'.text), l'.span⟩ s')
  peek : ∀ {bound : Nat} {c c' : Context} {s s' : State}, P.contexts bound c c' →
    P.states s s' →
    P.Outcomes (fun next next' t t' => P.lexemes next next' ∧ P.states t t') (c.peek s) (c'.peek s')
  advance : ∀ {next next' : Lexeme} {rest rest' : List Item} {s s' : State},
    P.lexemes next next' → P.states s s' → s.rest = .lexeme next :: rest →
    s'.rest = .lexeme next' :: rest' → P.states (s.advanced next) (s'.advanced next')
  missingArgument : ∀ {bound : Nat} {c c' : Context} {next next' : Lexeme} {command : String}
    {s s' : State}, P.contexts bound c c' → P.lexemes next next' → TakesArgument command →
    P.states s s' →
    P.Outcomes (fun f f' t t' => P.contents f f' ∧ P.states t t')
      (Readers.missingArgument c command next.span s)
      (Readers.missingArgument c' command next'.span s')

variable {P}

namespace Lawful

variable (lawful : P.Lawful) {l l' : Lexeme}
include lawful

theorem token_eq_iff {close : Token} (h : P.lexemes l l')
    (hclose : ∀ token : Token, token.canonical = close ↔ token = close) :
    l'.token = close ↔ l.token = close := by
  rw [← hclose l'.token, ← hclose l.token, lawful.token h]

theorem script?_eq (h : P.lexemes l l') : l'.token.script? = l.token.script? := by
  rw [← Token.script?_canonical, ← lawful.token h, Token.script?_canonical]

theorem glyph?_eq (h : P.lexemes l l') :
    Delimiter.glyph? l'.token = Delimiter.glyph? l.token := by
  rw [← Token.glyph?_canonical, ← lawful.token h, Token.glyph?_canonical]

variable {bound : Nat} {c c' : Context}

theorem closes_eq (hcontexts : P.contexts bound c c') (h : P.lexemes l l') :
    c'.closes l'.token = c.closes l.token := by
  rw [← Token.closes_canonical, ← lawful.token h, Token.closes_canonical]
  exact (Context.closes_congr _ _ _ (lawful.groups hcontexts)).symm

theorem startsArgument_eq (hcontexts : P.contexts bound c c') (h : P.lexemes l l') :
    c'.startsArgument l'.token = c.startsArgument l.token := by
  rw [← Token.startsArgument_canonical, ← lawful.token h, Token.startsArgument_canonical]
  exact (Context.startsArgument_congr _ _ _ (lawful.groups hcontexts)).symm

end Lawful

/-! ## Readings in step -/

namespace Outcomes

variable {after : α → β → State → State → Prop} {result : EStateM.Result ParseError State α}
  {result' : EStateM.Result ParseError State β}

theorem of_ok {a : α} {t : State} (h : P.Outcomes after (.ok a t) result') :
    ∃ b t', result' = .ok b t' ∧ after a b t t' := by
  cases result' with
  | ok b t' => exact ⟨b, t', rfl, h⟩
  | error _ _ => exact False.elim h

theorem of_error {e : ParseError} {t : State} (h : P.Outcomes after (.error e t) result') :
    ∃ e' t', result' = .error e' t' ∧ P.stopped e t e' t' := by
  cases result' with
  | ok _ _ => exact False.elim h
  | error e' t' => exact ⟨e', t', rfl, h⟩

theorem returned_or_stopped (h : P.Outcomes after result result') :
    (∃ a b t t', result = .ok a t ∧ result' = .ok b t' ∧ after a b t t') ∨
      ∃ e e' t t', result = .error e t ∧ result' = .error e' t' ∧ P.stopped e t e' t' := by
  cases result with
  | ok a t =>
      obtain ⟨b, t', hresult, hafter⟩ := h.of_ok
      exact .inl ⟨a, b, t, t', rfl, hresult, hafter⟩
  | error e t =>
      obtain ⟨e', t', hresult, hstopped⟩ := h.of_error
      exact .inr ⟨e, e', t, t', rfl, hresult, hstopped⟩

theorem imp {after' : α → β → State → State → Prop} (h : P.Outcomes after result result')
    (himp : ∀ a b t t', result = .ok a t → result' = .ok b t' → after a b t t' →
      after' a b t t') : P.Outcomes after' result result' := by
  cases result with
  | ok a t =>
      cases result' with
      | ok b t' => exact himp a b t t' rfl rfl h
      | error _ _ => exact h
  | error e t => cases result' <;> exact h

end Outcomes

namespace Runs

variable {before : State → State → Prop} {read : Reading α} {read' : Reading β}
  {after : α → β → State → State → Prop} {bound : Nat} {values : α → β → Prop}
  {next : α → Reading γ} {next' : β → Reading δ} {last : γ → δ → State → State → Prop}

theorem pure {a : α} {b : β} (h : ∀ s s', before s s' → after a b s s') :
    P.Runs before (pure a) (pure b) after :=
  fun s s' hs => h s s' hs

theorem bind (h : P.Runs before read read' after)
    (hnext : ∀ a b, P.Runs (after a b) (next a) (next' b) last) :
    P.Runs before (read >>= next) (read' >>= next') last := by
  intro s s' hs
  have houtcomes := h s s' hs
  change P.Outcomes last (EStateM.bind read next s) (EStateM.bind read' next' s')
  unfold EStateM.bind
  rcases houtcomes.returned_or_stopped with
    ⟨a, b, t, t', hread, hread', hafter⟩ | ⟨e, e', t, t', hread, hread', hstopped⟩
  · rw [hread, hread']
    exact hnext a b t t' hafter
  · rw [hread, hread']
    exact hstopped

theorem weaken {before' : State → State → Prop} {after' : α → β → State → State → Prop}
    (h : P.Runs before read read' after) (hbefore : ∀ s s', before' s s' → before s s')
    (hafter : ∀ a b t t', after a b t t' → after' a b t t') :
    P.Runs before' read read' after' :=
  fun s s' hs => (h s s' (hbefore s s' hs)).imp fun a b t t' _ _ => hafter a b t t'

theorem seq (h : P.Runs before read read' (P.Gives bound values))
    (hnext : ∀ a b, values a b → P.Runs (P.Within bound) (next a) (next' b) last) :
    P.Runs before (read >>= next) (read' >>= next') last :=
  h.bind fun a b s s' hs => hnext a b hs.1 s s' hs.2

theorem ite {condition condition' : Prop} [Decidable condition] [Decidable condition']
    {other : Reading α} {other' : Reading β} (hsame : condition' ↔ condition)
    (holds : condition → P.Runs before read read' after)
    (fails : ¬condition → P.Runs before other other' after) :
    P.Runs before (if condition then read else other) (if condition' then read' else other')
      after := by
  by_cases hcondition : condition
  · rw [if_pos hcondition, if_pos (hsame.mpr hcondition)]
    exact holds hcondition
  · rw [if_neg hcondition, if_neg (mt hsame.mp hcondition)]
    exact fails hcondition

theorem of_ahead {c c' : Context} {l l' : Lexeme}
    (h : P.Runs (P.Within bound) read read' after) :
    P.Runs (P.Ahead bound c c' l l') read read' after :=
  h.weaken (fun _ _ hs => hs.within) fun _ _ _ _ => id

theorem of_within_pred (h : P.Runs (P.Within bound) read read' after) :
    P.Runs (P.Within (bound - 1)) read read' after :=
  h.weaken (fun _ _ hs => ⟨hs.1, Nat.lt_of_lt_of_le hs.2 (Nat.sub_le bound 1)⟩) fun _ _ _ _ => id

theorem of_gives_pred (h : P.Runs before read read' (P.Gives (bound - 1) values)) :
    P.Runs before read read' (P.Gives bound values) :=
  h.weaken (fun _ _ => id) fun _ _ _ _ ht =>
    ⟨ht.1, ht.2.1, Nat.lt_of_lt_of_le ht.2.2 (Nat.sub_le bound 1)⟩

/-! ### Basic steps -/

variable (lawful : P.Lawful) {level : Nat} {c c' : Context} {l l' : Lexeme}
include lawful

theorem report {cause : Cause} (h : P.contexts level c c') (hl : P.lexemes l l')
    (hcause : cause.At l) :
    P.Runs (P.Within bound) (c.report ⟨cause, l.span⟩) (c'.report ⟨cause, l'.span⟩)
      (P.Gives bound fun _ _ => True) :=
  fun _ _ hs => (lawful.report h hl hcause hs.1).imp fun _ _ _ _ hread _ ht =>
    ⟨trivial, ht, State.ahead_of_rest (Context.report_rest hread) ▸ hs.2⟩

theorem report_bind {cause : Cause} {next : Unit → Reading α} {next' : Unit → Reading β}
    (h : P.contexts level c c') (hl : P.lexemes l l') (hcause : cause.At l)
    (hnext : P.Runs (P.Within bound) (next ()) (next' ()) after) :
    P.Runs (P.Within bound) (c.report ⟨cause, l.span⟩ >>= next)
      (c'.report ⟨cause, l'.span⟩ >>= next') after :=
  (report lawful h hl hcause).seq fun _ _ _ => hnext

theorem invalidDelimiter_bind {next : Unit → Reading α} {next' : Unit → Reading β}
    (h : P.contexts level c c') (hl : P.lexemes l l') (htoken : l.token ≠ .sourceEnd)
    (hnext : P.Runs (P.Within bound) (next ()) (next' ()) after) :
    P.Runs (P.Within bound)
      (c.report ⟨.invalidDelimiter (Text.trimEnd l.text), l.span⟩ >>= next)
      (c'.report ⟨.invalidDelimiter (Text.trimEnd l'.text), l'.span⟩ >>= next') after := by
  refine Runs.bind (fun s s' hs => ?_) fun _ _ => hnext
  exact (lawful.invalidDelimiter h hl htoken hs.1).imp fun _ _ _ _ hread _ ht =>
    ⟨ht, State.ahead_of_rest (Context.report_rest hread) ▸ hs.2⟩

theorem peek_bind {next : Lexeme → Reading α} {next' : Lexeme → Reading β}
    (h : P.contexts level c c')
    (hnext : ∀ l l', P.lexemes l l' →
      P.Runs (P.Ahead bound c c' l l') (next l) (next' l') after) :
    P.Runs (P.Within bound) (c.peek >>= next) (c'.peek >>= next') after := by
  have hpeek : P.Runs (P.Within bound) c.peek c'.peek (P.Ahead bound c c') := by
    intro s s' hs
    refine (lawful.peek h hs.1).imp fun l l' t t' hread hread' ht => ?_
    obtain ⟨hrest, hupcoming⟩ := Context.peek_rest hread
    obtain ⟨-, hupcoming'⟩ := Context.peek_rest hread'
    exact ⟨⟨ht.2, Context.peek_ahead hread ▸ hs.2⟩, ht.1, hrest ▸ splitFaults_splitFaults s.rest,
      hupcoming, hupcoming'⟩
  refine hpeek.bind fun l l' s s' hs => ?_
  exact hnext l l' hs.lexemes s s' hs

theorem advance (htoken : l.token ≠ .sourceEnd) :
    P.Runs (P.Ahead bound c c' l l') (Context.advance l) (Context.advance l')
      (P.Gives (bound - 1) fun _ _ => True) := by
  intro s s' hs
  have htoken' : l'.token ≠ .sourceEnd :=
    mt (lawful.token_eq_iff hs.lexemes (Token.canonical_eq_of_ne_command (by nofun))).mp htoken
  have hrest := (State.takes_upcoming hs.upcoming htoken).rest_eq_cons
  have hrest' := (State.takes_upcoming hs.upcoming' htoken').rest_eq_cons
  have hahead := State.ahead_advanced hrest
  have hbound := hs.within.2
  refine ⟨trivial, lawful.advance hs.lexemes hs.within.1 hrest hrest', ?_⟩
  change (s.advanced l).ahead < bound - 1
  omega

theorem advance_bind {next : Unit → Reading α} {next' : Unit → Reading β}
    (htoken : l.token ≠ .sourceEnd)
    (hnext : P.Runs (P.Within (bound - 1)) (next ()) (next' ()) after) :
    P.Runs (P.Ahead bound c c' l l') (Context.advance l >>= next)
      (Context.advance l' >>= next') after :=
  (advance lawful htoken).seq fun _ _ _ => hnext

theorem lastEnd_bind {next : Nat → Reading α} {next' : Nat → Reading β}
    (hnext : ∀ stop stop', P.Stops stop stop' →
      P.Runs (P.Within bound) (next stop) (next' stop') after) :
    P.Runs (P.Within bound) (lastEnd >>= next) (lastEnd >>= next') after :=
  fun s s' hs => hnext s.lastEnd s'.lastEnd (lawful.stops hs.1) s s' hs

theorem deeper {inner : Context → Reading α} {inner' : Context → Reading β}
    (h : P.contexts (level + 1) c c') (hl : P.lexemes l l') (groups : List Closer)
    (hread : ∀ d d', P.contexts level d d' →
      P.Runs (P.Within bound) (inner d) (inner' d') after) :
    P.Runs (P.Within bound) ({ c with groups }.deeper l.span inner)
      ({ c' with groups }.deeper l'.span inner') after := by
  by_cases hroom : c.depth < c.options.maxDepth
  · have hinside := lawful.deeper groups h hroom
    rw [Context.deeper_of_lt { c with groups } hroom,
      Context.deeper_of_lt { c' with groups } ((lawful.room h).mp hroom)]
    exact hread _ _ hinside
  · rw [Context.deeper_of_not_lt { c with groups } hroom,
      Context.deeper_of_not_lt { c' with groups } fun hroom' => hroom ((lawful.room h).mpr hroom')]
    intro s s' hs
    exact lawful.tooDeep h hroom hl hs.1

theorem inGroup {inner : Context → Reading α} {inner' : Context → Reading β}
    (h : P.contexts (level + 1) c c') (hl : P.lexemes l l') (closer : Closer)
    (hread : ∀ d d', P.contexts level d d' →
      P.Runs (P.Within bound) (inner d) (inner' d') after) :
    P.Runs (P.Within bound) (c.inGroup closer l.span inner) (c'.inGroup closer l'.span inner')
      after := by
  unfold Context.inGroup
  rw [← lawful.groups h]
  exact deeper lawful h hl (closer :: c.groups) hread

end Runs

/-! ## Atoms in common -/

namespace Atoms

theorem symbol (lawful : P.Lawful) {l l' : Lexeme} (kind : AtomKind) (nucleus : String)
    (h : P.lexemes l l') :
    P.Atoms (.symbol kind nucleus l.span) (.symbol kind nucleus l'.span) where
  kind := rfl
  nucleus := rfl
  arguments := .nil
  scripts which := by cases which <;> exact .none
  boundaries := rfl
  rows := .nil
  span := lawful.lexemeSpan h

theorem structured {kind : AtomKind} {nucleus : String} {arguments arguments' : List Formula}
    {span span' : Span} (h : List.Forall₂ P.contents arguments arguments')
    (hspan : P.spans span span') :
    P.Atoms { kind, nucleus, arguments, span }
      { kind, nucleus, arguments := arguments', span := span' } where
  kind := rfl
  nucleus := rfl
  arguments := h
  scripts which := by cases which <;> exact .none
  boundaries := rfl
  rows := .nil
  span := hspan

theorem scriptBase (lawful : P.Lawful) {l l' : Lexeme} (h : P.lexemes l l') :
    P.Atoms (.scriptBase l.span.start) (.scriptBase l'.span.start) where
  kind := rfl
  nucleus := rfl
  arguments := .nil
  scripts which := by cases which <;> exact .none
  boundaries := rfl
  rows := .nil
  span := lawful.pointSpan h

theorem group {content content' : Formula} {span span' : Span} (boundaries : Option Boundaries)
    (h : P.contents content content') (hspan : P.spans span span') :
    P.Atoms (.group content boundaries span) (.group content' boundaries span') where
  kind := rfl
  nucleus := rfl
  arguments := .cons h .nil
  scripts which := by cases which <;> exact .none
  boundaries := rfl
  rows := .nil
  span := hspan

theorem table {nucleus : String} {rows rows' : List (List Formula)} {span span' : Span}
    (h : List.Forall₂ (List.Forall₂ P.contents) rows rows') (hspan : P.spans span span') :
    P.Atoms { kind := .table, nucleus, rows, span }
      { kind := .table, nucleus, rows := rows', span := span' } where
  kind := rfl
  nucleus := rfl
  arguments := .nil
  scripts which := by cases which <;> exact .none
  boundaries := rfl
  rows := h
  span := hspan

variable {a a' : Atom} (h : P.Atoms a a')
include h

theorem withScript (lawful : P.Lawful) (which : Script) {content content' : Formula}
    {place place' : Span} (hcontent : P.contents content content')
    (hplace : P.spans place place') :
    P.Atoms (a.withScript which content place) (a'.withScript which content' place') where
  kind := by simp [h.kind]
  nucleus := by simp [h.nucleus]
  arguments := by simpa using h.arguments
  scripts other := by
    by_cases hother : other = which
    · subst hother
      cases other <;> exact .some hcontent
    · have hscript := h.scripts other
      rw [← Atom.script_setScript_of_ne a (some content) hother,
        ← Atom.script_setScript_of_ne a' (some content') hother] at hscript
      cases other <;> exact hscript
  boundaries := by simp [h.boundaries]
  rows := by simpa using h.rows
  span := lawful.cover h.span hplace

theorem withLimits (lawful : P.Lawful) (value : Bool) {place place' : Span}
    (hplace : P.spans place place') :
    P.Atoms (a.withLimits value place) (a'.withLimits value place') where
  kind := rfl
  nucleus := h.nucleus
  arguments := h.arguments
  scripts which := by
    cases which with
    | superscript => exact h.scripts .superscript
    | subscript => exact h.scripts .subscript
  boundaries := h.boundaries
  rows := h.rows
  span := lawful.cover h.span hplace

theorem map_script {β : Type} {f g : Formula → β} (hsame : ∀ x y, P.contents x y → f x = g y)
    (which : Script) : (a.script which).map f = (a'.script which).map g := by
  have hscripts := h.scripts which
  generalize a.script which = script at hscripts ⊢
  generalize a'.script which = script' at hscripts ⊢
  cases hscripts with
  | some hcontents => exact congrArg some (hsame _ _ hcontents)
  | none => rfl

theorem isSome_script (which : Script) : (a.script which).isSome = (a'.script which).isSome := by
  have hscripts := h.scripts which
  generalize a.script which = script at hscripts ⊢
  generalize a'.script which = script' at hscripts ⊢
  cases hscripts <;> rfl

end Atoms

end Pairing

end TexMath
