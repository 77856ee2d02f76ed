import TexMath.Proofs.Reading.Composition

/-!
# Readings with a stack

A reading is told which groups are open and how deep it is.  A walk keeps both itself: it counts
the levels, pushes what ends a group when it enters the group, and takes both back when it leaves,
whether with a value or with an error.  The rules are those of a reading, whose compositions are
carried out as walks.

A walk leaves a trail, so that something can be said about all points of it and not only about the
last one.
-/

namespace TexMath

structure Standing where
  /-- The open groups, the innermost first. -/
  groups : List Closer := []
  depth : Nat := 0
  taken : Nat := 0
deriving DecidableEq, Repr

structure Course where
  state : State
  standing : Standing := {}
  /-- The standings before this one, the latest first. -/
  past : List Standing := []
deriving DecidableEq, Repr

def Course.moved (course : Course) (step : Standing → Standing) : Course :=
  { course with standing := step course.standing, past := course.standing :: course.past }

def Course.points (course : Course) : List Standing := course.standing :: course.past

abbrev Walk := EStateM ParseError Course

def Context.under (context : Context) (standing : Standing) : Context :=
  { context with groups := standing.groups, depth := standing.depth }

namespace Walk

variable (base : Context) {α : Type}

def here (read : Context → Reading α) : Walk α := fun course =>
  match read (base.under course.standing) course.state with
  | .ok a state => .ok a { course with state }
  | .error error state => .error error { course with state }

def move (step : Standing → Standing) : Walk Unit := modify (·.moved step)

/-- Steps back behind the walk, also where it ends with an error. -/
def within (enter leave : Standing → Standing) (walk : Walk α) : Walk α := do
  move enter
  try walk
  finally move leave

def ask (question : Context → Bool) (yes : (∃ context, question context = true) → Walk α)
    (no : (∃ context, question context = false) → Walk α) : Walk α := fun course =>
  match hanswer : question (base.under course.standing) with
  | true => yes ⟨_, hanswer⟩ course
  | false => no ⟨_, hanswer⟩ course

def peek : Walk Lexeme := here base Context.peek

def report (error : ParseError) : Walk Unit := here base (Context.report · error)

def advance (next : Lexeme) : Walk Unit := do
  here base fun _ => Context.advance next
  move fun standing => { standing with taken := standing.taken + 1 }

def nested (place : Span) (walk : Walk α) : Walk α := do
  if (← get).standing.depth < base.options.maxDepth then
    within (fun standing => { standing with depth := standing.depth + 1 })
      (fun standing => { standing with depth := standing.depth - 1 }) walk
  else
    throw ⟨.nestingTooDeep, place⟩

def inGroup (closer : Closer) (place : Span) (walk : Walk α) : Walk α :=
  within (fun standing => { standing with groups := closer :: standing.groups })
    (fun standing => { standing with groups := standing.groups.tail }) (nested base place walk)

end Walk

/-- The walk that takes the steps of a reading. -/
def Composition.walk (base : Context) : {α : Type} → {stage : Stage} →
    {read : Context → Reading α} → Composition stage read → Walk α
  | _, _, _, .pure a => Pure.pure a
  | _, _, _, .bind first rest => first.walk base >>= fun a => (rest a).walk base
  | _, _, _, .peek rest => Walk.peek base >>= fun l => (rest l).walk base
  | _, ⟨_, _, some l⟩, _, .advance _ rest => Walk.advance base l >>= fun _ => rest.walk base
  | _, _, _, .report cause place _ => Walk.report base ⟨cause, place⟩
  | _, _, _, .missing command place =>
      Walk.here base fun context => Readers.missingArgument context command place
  | _, _, _, .ending formula => Walk.here base fun context => context.ending formula
  | _, _, _, .lastEnd => Walk.here base fun _ => TexMath.lastEnd
  | _, _, _, @Composition.ite _ _ condition _ _ _ holds fails =>
      if h : condition then (holds h).walk base else (fails h).walk base
  | _, _, _, @Composition.ask _ _ question _ _ _ yes no =>
      Walk.ask base question (fun h => (yes h).walk base) fun h => (no h).walk base
  | _, _, _, @Composition.deeper _ _ _ place _ inner => Walk.nested base place (inner.walk base)
  | _, _, _, @Composition.inGroup _ _ _ closer place _ inner =>
      Walk.inGroup base closer place (inner.walk base)
  | _, _, _, .less _ inner => inner.walk base

def walkThrough (mode : ReadingMode) (options : ReadingOptions) (source : String) :
    EStateM.Result ParseError Course Formula :=
  let items := significantItems source
  let base : Context := { options, mode, sourceEnd := source.utf8ByteSize }
  ((Readers.composed (items.length + 1)).root.walk base).run { state := { rest := items } }

end TexMath
