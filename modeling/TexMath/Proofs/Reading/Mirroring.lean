import TexMath.Proofs.Reading.Exhaustion
import TexMath.Proofs.Reading.Stack

/-!
# Walks that mirror readings

A walk mirrors a reading when from every point it comes to what the reading comes to in the context
of that point, and when it is then back in the groups and at the depth where it began.  Along with
this goes what bounds the depth: a level is paid for with a lexeme.  The `slack` of a judgment is
how many lexemes have been taken for which no level has been entered yet, so that to take a lexeme
raises it and to enter a level uses it up.

There is one law for each way in which the rules put walks together.
-/

namespace TexMath

variable {α β : Type} {base : Context} {total slack : Nat} {lexeme : Lexeme}

/-! ## Points of a walk -/

/-- What holds at every point: a level is entered only where the bound allows it and never without
a lexeme. -/
structure Standing.Sound (bound : Nat) (standing : Standing) : Prop where
  depth_le_bound : standing.depth ≤ bound
  depth_le_taken : standing.depth ≤ standing.taken

namespace Course

/-- All points so far are sound, and as many levels more as the slack could be entered. -/
structure Sound (bound total slack : Nat) (course : Course) : Prop where
  depth_le : course.standing.depth ≤ bound
  slack_le : course.standing.depth + slack ≤ course.standing.taken
  past : ∀ standing ∈ course.past, standing.Sound bound
  ahead : course.standing.taken + course.state.ahead = total

structure Returns (course after : Course) : Prop where
  groups : after.standing.groups = course.standing.groups
  depth : after.standing.depth = course.standing.depth
  taken : course.standing.taken ≤ after.standing.taken

variable {bound : Nat} {course after last : Course}

theorem Returns.refl (course : Course) : course.Returns course := ⟨rfl, rfl, Nat.le_refl _⟩

theorem Returns.trans (h : course.Returns after) (hlast : after.Returns last) :
    course.Returns last where
  groups := hlast.groups.trans h.groups
  depth := hlast.depth.trans h.depth
  taken := Nat.le_trans h.taken hlast.taken

theorem Returns.under (h : course.Returns after) (base : Context) :
    base.under after.standing = base.under course.standing := by
  simp only [Context.under, h.groups, h.depth]

theorem Sound.mono {less : Nat} (h : course.Sound bound total slack) (hle : less ≤ slack) :
    course.Sound bound total less :=
  ⟨h.depth_le, Nat.le_trans (Nat.add_le_add_left hle _) h.slack_le, h.past, h.ahead⟩

theorem Sound.sound (h : course.Sound bound total slack) : course.standing.Sound bound :=
  ⟨h.depth_le, Nat.le_trans (Nat.le_add_right _ _) h.slack_le⟩

theorem Sound.still {state : State} (h : course.Sound bound total slack)
    (hahead : state.ahead = course.state.ahead) :
    Course.Sound bound total slack { course with state } :=
  ⟨h.depth_le, h.slack_le, h.past, hahead ▸ h.ahead⟩

theorem Sound.moved {less : Nat} {step : Standing → Standing}
    (h : course.Sound bound total slack)
    (htaken : (step course.standing).taken = course.standing.taken)
    (hdepth : (step course.standing).depth ≤ bound)
    (hslack : (step course.standing).depth + less ≤ course.standing.taken) :
    (course.moved step).Sound bound total less where
  depth_le := hdepth
  slack_le := htaken.symm ▸ hslack
  past := List.forall_mem_cons.mpr ⟨h.sound, h.past⟩
  ahead := htaken.symm ▸ h.ahead

theorem Returns.sound {less : Nat} (h : course.Returns after)
    (hcourse : course.Sound bound total slack) (hafter : after.Sound bound total less) :
    after.Sound bound total slack :=
  have hslack : after.standing.depth + slack ≤ after.standing.taken := by
    rw [h.depth]
    exact Nat.le_trans hcourse.slack_le h.taken
  ⟨hafter.depth_le, hslack, hafter.past, hafter.ahead⟩

end Course

/-! ## Steps that take no lexeme -/

namespace Reading

/-- The step takes no lexeme, and it goes on after errors if the reading does. -/
def Still (context : Context) (read : Reading α) : Prop :=
  ∀ s, match read s with
    | .ok _ t => t.ahead = s.ahead
    | .error _ t => t.ahead = s.ahead ∧ context.mode = .firstError

namespace Still

variable {context : Context} {read : Reading α} {next : α → Reading β}

theorem pure (a : α) : Still context (pure a) := fun _ => rfl

theorem lastEnd : Still context TexMath.lastEnd := fun _ => rfl

theorem bind (h : Still context read) (hnext : ∀ a, Still context (next a)) :
    Still context (read >>= next) := by
  intro s
  have hfirst := h s
  cases hresult : read s with
  | error error t =>
      rw [hresult] at hfirst
      rw [Reading.bind_of_error hresult]
      exact hfirst
  | ok a t =>
      rw [hresult] at hfirst
      rw [Reading.bind_of_ok hresult]
      have hlast := hnext a t
      have ht : t.ahead = s.ahead := hfirst
      rwa [ht] at hlast

theorem report (error : ParseError) : Still context (context.report error) := by
  intro s
  cases hmode : context.mode with
  | firstError =>
      rw [Context.report_firstError hmode]
      exact ⟨rfl, rfl⟩
  | collect =>
      rw [Context.report_collect hmode]
      rfl

theorem forM_report (errors : List ParseError) : Still context (errors.forM context.report) := by
  induction errors with
  | nil => exact pure _
  | cons error errors ih => exact (report error).bind fun _ => ih

theorem peek : Still context context.peek := by
  intro s
  have hahead : State.ahead { s with rest := (splitFaults s.rest).2 } = s.ahead := by
    rw [State.ahead, filterMap_token?_splitFaults, State.ahead]
  have hfaults : Still context ((splitFaults s.rest).1.forM context.report >>= fun _ =>
      Pure.pure (context.upcoming (splitFaults s.rest).2)) :=
    (forM_report _).bind fun _ => pure _
  have hpassed := hfaults { s with rest := (splitFaults s.rest).2 }
  rwa [hahead, ← Context.peek_apply] at hpassed

theorem missingArgument (command : String) (place : Span) :
    Still context (Readers.missingArgument context command place) := by
  unfold Readers.missingArgument
  split
  · exact pure _
  · exact (report _).bind fun _ => pure _

theorem ending (formula : Formula) : Still context (context.ending formula) := by
  unfold Context.ending
  split
  · exact (report _).bind fun _ => pure _
  · exact pure _

end Still

end Reading

/-! ## Walks and readings -/

namespace Walk

def erase : EStateM.Result ParseError Course α → EStateM.Result ParseError State α
  | .ok a course => .ok a course.state
  | .error error course => .error error course.state

def final : EStateM.Result ParseError Course α → Course
  | .ok _ course => course
  | .error _ course => course

/-- From a point a walk has come to what a reading comes to from there.  In the groups it is back
where it was, and if all points before were sound, so are those since.  An error ends a walk that
goes on after errors only where more lexemes have been taken than levels are allowed. -/
structure Ends (base : Context) (total slack : Nat) (before : Course → Prop) (course : Course)
    (result : EStateM.Result ParseError Course α) (result' : EStateM.Result ParseError State α) :
    Prop where
  erase : erase result = result'
  returns : course.Returns (final result)
  sound : before course → course.Sound base.options.maxDepth total slack →
    (final result).Sound base.options.maxDepth total slack
  error : before course → course.Sound base.options.maxDepth total slack →
    base.mode = .collect → ∀ error after, result = .error error after →
      base.options.maxDepth < total

def MirrorsFrom (before : Course → Prop) (base : Context) (total slack : Nat) (walk : Walk α)
    (read : Context → Reading α) : Prop :=
  ∀ course, Ends base total slack before course (walk course)
    (read (base.under course.standing) course.state)

abbrev Mirrors (base : Context) (total slack : Nat) (walk : Walk α)
    (read : Context → Reading α) : Prop :=
  MirrorsFrom (fun _ => True) base total slack walk read

def Facing (base : Context) (lexeme : Lexeme) (course : Course) : Prop :=
  lexeme = base.upcoming course.state.rest

theorem bind_of_ok {walk : Walk α} {course after : Course} {a : α}
    (h : walk course = .ok a after) (next : α → Walk β) :
    (walk >>= next) course = next a after := by
  change EStateM.bind walk next course = _
  unfold EStateM.bind
  rw [h]

theorem bind_of_error {walk : Walk α} {course after : Course} {error : ParseError}
    (h : walk course = .error error after) (next : α → Walk β) :
    (walk >>= next) course = .error error after := by
  change EStateM.bind walk next course = _
  unfold EStateM.bind
  rw [h]

namespace MirrorsFrom

variable {before : Course → Prop} {walk other : Walk α} {read readOther : Context → Reading α}
  {next : α → Walk β} {readNext : α → Context → Reading β}

theorem pure (a : α) : Mirrors base total slack (pure a) fun _ => pure a := fun course =>
  { erase := rfl, returns := .refl course, sound := fun _ h => h
    error := fun _ _ _ _ _ h => nomatch h }

theorem bind_from {between : α → Course → Prop}
    (h : MirrorsFrom before base total slack walk read)
    (hbetween : ∀ course a after, walk course = .ok a after → between a after)
    (hnext : ∀ a, MirrorsFrom (between a) base total slack (next a) (readNext a)) :
    MirrorsFrom before base total slack (walk >>= next) fun context =>
      read context >>= fun a => readNext a context := by
  intro course
  change Ends base total slack before course _ ((read (base.under course.standing) >>= fun a =>
    readNext a (base.under course.standing)) course.state)
  have hfirst := h course
  cases hresult : walk course with
  | error error after =>
      rw [hresult] at hfirst
      rw [bind_of_error hresult, Reading.bind_of_error hfirst.erase.symm]
      exact ⟨rfl, hfirst.returns, hfirst.sound, fun hbefore hcourse hmode _ _ _ =>
        hfirst.error hbefore hcourse hmode _ _ rfl⟩
  | ok a after =>
      rw [hresult] at hfirst
      rw [bind_of_ok hresult, Reading.bind_of_ok hfirst.erase.symm]
      have hlast := hnext a after
      have hafter := hbetween course a after hresult
      -- The first step is back in the groups, so what follows is read in the same context.
      have hunder : base.under after.standing = base.under course.standing :=
        hfirst.returns.under base
      rw [hunder] at hlast
      exact ⟨hlast.erase, hfirst.returns.trans hlast.returns,
        fun hbefore hcourse => hlast.sound hafter (hfirst.sound hbefore hcourse),
        fun hbefore hcourse => hlast.error hafter (hfirst.sound hbefore hcourse)⟩

theorem bind (h : MirrorsFrom before base total slack walk read)
    (hnext : ∀ a, Mirrors base total slack (next a) (readNext a)) :
    MirrorsFrom before base total slack (walk >>= next) fun context =>
      read context >>= fun a => readNext a context :=
  bind_from h (fun _ _ _ _ => trivial) hnext

theorem weaken {before' : Course → Prop} (h : MirrorsFrom before base total slack walk read)
    (hbefore : ∀ course, before' course → before course) :
    MirrorsFrom before' base total slack walk read := fun course =>
  ⟨(h course).erase, (h course).returns, fun hcourse => (h course).sound (hbefore course hcourse),
    fun hcourse => (h course).error (hbefore course hcourse)⟩

theorem more {less : Nat} (h : MirrorsFrom before base total less walk read) (hle : less ≤ slack) :
    MirrorsFrom before base total slack walk read := fun course =>
  ⟨(h course).erase, (h course).returns, fun hbefore hcourse =>
      (h course).returns.sound hcourse ((h course).sound hbefore (hcourse.mono hle)),
    fun hbefore hcourse => (h course).error hbefore (hcourse.mono hle)⟩

theorem ite {condition : Prop} [Decidable condition] {holds : condition → Walk α}
    {fails : ¬condition → Walk α}
    (h : ∀ hcondition, MirrorsFrom before base total slack (holds hcondition) read)
    (hother : ∀ hcondition, MirrorsFrom before base total slack (fails hcondition) readOther) :
    MirrorsFrom before base total slack (if h : condition then holds h else fails h)
      fun context => if condition then read context else readOther context := by
  by_cases hcondition : condition
  · simp only [hcondition]
    exact h hcondition
  · simp only [hcondition]
    exact hother hcondition

theorem ask {question : Context → Bool} {yes : (∃ context, question context = true) → Walk α}
    {no : (∃ context, question context = false) → Walk α}
    (h : ∀ hanswer, MirrorsFrom before base total slack (yes hanswer) read)
    (hother : ∀ hanswer, MirrorsFrom before base total slack (no hanswer) readOther) :
    MirrorsFrom before base total slack (Walk.ask base question yes no) fun context =>
      if question context = true then read context else readOther context := by
  intro course
  change Ends base total slack before course _ ((if question (base.under course.standing) = true
    then read (base.under course.standing) else readOther (base.under course.standing))
      course.state)
  unfold Walk.ask
  split
  · rename_i hanswer
    rw [if_pos hanswer]
    exact h _ course
  · rename_i hanswer
    rw [if_neg (by simp [hanswer])]
    exact hother _ course

end MirrorsFrom

theorem erase_here (read : Context → Reading α) (course : Course) :
    erase (here base read course) = read (base.under course.standing) course.state := by
  unfold here
  cases read (base.under course.standing) course.state <;> rfl

theorem mirrors_here {read : Context → Reading α}
    (h : ∀ context, Reading.Still context (read context)) :
    Mirrors base total slack (here base read) read := by
  intro course
  have hstill := h (base.under course.standing) course.state
  unfold here
  cases hresult : read (base.under course.standing) course.state with
  | ok a t =>
      rw [hresult] at hstill
      exact ⟨rfl, ⟨rfl, rfl, Nat.le_refl _⟩, fun _ hcourse => hcourse.still hstill,
        fun _ _ _ _ _ h => nomatch h⟩
  | error error t =>
      rw [hresult] at hstill
      refine ⟨rfl, ⟨rfl, rfl, Nat.le_refl _⟩, fun _ hcourse => hcourse.still hstill.1,
        fun _ _ hmode => ?_⟩
      cases hmode.symm.trans hstill.2

namespace MirrorsFrom

variable {before : Course → Prop} {walk : Walk α} {read : Context → Reading α}
  {next : Lexeme → Walk β} {readNext : Lexeme → Context → Reading β}

theorem report (error : ParseError) :
    Mirrors base total slack (Walk.report base error) fun context => context.report error :=
  mirrors_here fun _ => Reading.Still.report error

theorem peek_bind
    (h : ∀ l, MirrorsFrom (Facing base l) base total slack (next l) (readNext l)) :
    Mirrors base total slack (Walk.peek base >>= next) fun context =>
      context.peek >>= fun l => readNext l context := by
  refine bind_from (mirrors_here fun _ => Reading.Still.peek) (fun course l after hpeek => ?_) h
  have herase : erase (Walk.peek base course) = _ := erase_here Context.peek course
  rw [hpeek] at herase
  exact (Context.peek_rest herase.symm).2

theorem advance_bind {next : Unit → Walk β} {readNext : Unit → Context → Reading β}
    (htoken : lexeme.token ≠ .sourceEnd)
    (h : Mirrors base total (slack + 1) (next ()) (readNext ())) :
    MirrorsFrom (Facing base lexeme) base total slack (Walk.advance base lexeme >>= next)
      fun context => Context.advance lexeme >>= fun done => readNext done context := by
  intro course
  let after : Course := Course.moved { course with state := course.state.advanced lexeme }
    fun standing => { standing with taken := standing.taken + 1 }
  have hadvanced : Walk.advance base lexeme course = .ok () after := rfl
  have hreturns : course.Returns after := ⟨rfl, rfl, Nat.le_succ _⟩
  have hnext := h after
  have hunder : base.under after.standing = base.under course.standing := hreturns.under base
  rw [hunder] at hnext
  have hsound : Facing base lexeme course → course.Sound base.options.maxDepth total slack →
      after.Sound base.options.maxDepth total (slack + 1) := by
    intro hfacing hcourse
    have htaken := State.ahead_advanced (State.takes_upcoming hfacing htoken).rest_eq_cons
    have hahead := hcourse.ahead
    refine ⟨hcourse.depth_le, Nat.succ_le_succ hcourse.slack_le,
      List.forall_mem_cons.mpr ⟨hcourse.sound, hcourse.past⟩, ?_⟩
    simp only [after, Course.moved]
    omega
  rw [bind_of_ok hadvanced]
  exact ⟨hnext.erase, hreturns.trans hnext.returns,
    fun hfacing hcourse => (hnext.sound trivial (hsound hfacing hcourse)).mono (Nat.le_succ _),
    fun hfacing hcourse => hnext.error trivial (hsound hfacing hcourse)⟩

end MirrorsFrom

theorem within_apply (enter leave : Standing → Standing) (walk : Walk α) (course : Course) :
    within enter leave walk course = match walk (course.moved enter) with
      | .ok a after => .ok a (after.moved leave)
      | .error error after => .error error (after.moved leave) := by
  change (do try walk finally move leave : Walk α) (course.moved enter) = _
  cases h : walk (course.moved enter) <;>
    simp only [tryFinally, tryFinally', Functor.map, EStateM.map, h] <;> rfl

theorem nested_of_lt {course : Course} (h : course.standing.depth < base.options.maxDepth)
    (place : Span) (walk : Walk α) :
    nested base place walk course =
      within (fun standing => { standing with depth := standing.depth + 1 })
        (fun standing => { standing with depth := standing.depth - 1 }) walk course := by
  change (if course.standing.depth < base.options.maxDepth then _ else _ : Walk α) course = _
  rw [if_pos h]

theorem nested_of_not_lt {course : Course} (h : ¬course.standing.depth < base.options.maxDepth)
    (place : Span) (walk : Walk α) :
    nested base place walk course = .error ⟨.nestingTooDeep, place⟩ course := by
  change (if course.standing.depth < base.options.maxDepth then _ else _ : Walk α) course = _
  rw [if_neg h]
  rfl

theorem Mirrors.within {inner : Nat} {enter leave : Standing → Standing} {walk : Walk α}
    {read : Context → Reading α} (h : Mirrors base total inner walk read) {course : Course}
    (henter : (enter course.standing).taken = course.standing.taken)
    (hleave : ∀ after : Standing, after.groups = (enter course.standing).groups →
      after.depth = (enter course.standing).depth →
      leave after = { course.standing with taken := after.taken })
    (hsound : course.Sound base.options.maxDepth total slack →
      (course.moved enter).Sound base.options.maxDepth total inner) :
    Ends base total slack (fun _ => True) course (Walk.within enter leave walk course)
      (read (base.under (enter course.standing)) course.state) := by
  have hinner := h (course.moved enter)
  generalize hresult : walk (course.moved enter) = result at hinner
  have hback := hleave _ hinner.returns.groups hinner.returns.depth
  have htaken : course.standing.taken ≤ (final result).standing.taken :=
    henter ▸ hinner.returns.taken
  have hreturns : course.Returns ((final result).moved leave) := by
    refine ⟨?_, ?_, ?_⟩ <;> simp only [Course.moved, hback]
    exact htaken
  have hkept : course.Sound base.options.maxDepth total slack →
      ((final result).moved leave).Sound base.options.maxDepth total slack := by
    intro hcourse
    refine (hinner.sound trivial (hsound hcourse)).moved ?_ ?_ ?_ <;> rw [hback]
    · exact hcourse.depth_le
    · exact Nat.le_trans hcourse.slack_le htaken
  have hwithin := within_apply enter leave walk course
  rw [hresult] at hwithin
  rw [hwithin]
  cases result with
  | ok a after => exact ⟨hinner.erase, hreturns, fun _ => hkept, fun _ _ _ _ _ h => nomatch h⟩
  | error error after =>
      exact ⟨hinner.erase, hreturns, fun _ => hkept, fun _ hcourse hmode _ _ _ =>
        hinner.error trivial (hsound hcourse) hmode _ _ rfl⟩

namespace MirrorsFrom

variable {walk : Walk α} {read : Context → Reading α}

theorem nested {place : Span} (h : Mirrors base total slack walk read) :
    Mirrors base total (slack + 1) (Walk.nested base place walk) fun context =>
      context.deeper place fun inside => read inside := by
  intro course
  change Ends base total (slack + 1) _ course _
    ((base.under course.standing).deeper place read course.state)
  by_cases hroom : course.standing.depth < base.options.maxDepth
  · rw [nested_of_lt hroom, Context.deeper_of_lt _ hroom]
    refine Mirrors.within h rfl ?_ fun hcourse => ?_
    · rintro ⟨groups, depth, taken⟩ rfl rfl
      rfl
    · refine hcourse.moved rfl hroom ?_
      have hslack := hcourse.slack_le
      dsimp only
      omega
  · rw [nested_of_not_lt hroom, Context.deeper_of_not_lt _ hroom]
    refine ⟨rfl, .refl course, fun _ hcourse => hcourse, fun _ hcourse _ _ _ _ => ?_⟩
    -- A lexeme has been taken for each level, and one more.
    have hslack := hcourse.slack_le
    have hahead := hcourse.ahead
    omega

theorem inGroup {closer : Closer} {place : Span} (h : Mirrors base total slack walk read) :
    Mirrors base total (slack + 1) (Walk.inGroup base closer place walk) fun context =>
      context.inGroup closer place fun inside => read inside := by
  intro course
  refine Mirrors.within (nested h) rfl ?_ ?_
  · rintro ⟨groups, depth, taken⟩ rfl rfl
    rfl
  · exact fun hcourse => hcourse.moved rfl hcourse.depth_le hcourse.slack_le

end MirrorsFrom

end Walk

end TexMath
