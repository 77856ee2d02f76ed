import TexMath.Proofs.Formula.Nesting
import TexMath.Proofs.Grammar.Steps
import TexMath.Proofs.Reading.Outcome

/-!
# Progress through the items

`State.Takes` says that a reading has taken some lexemes from the front of the items and nothing
else has changed.  The lemmas follow it over a single lexeme and over one row of lexemes after
another.
-/

namespace TexMath

/-- The second state is the first one after the lexemes have been taken. -/
structure State.Takes (s : State) (lexemes : List Lexeme) (s' : State) : Prop where
  rest : s.rest = lexemes.map .lexeme ++ s'.rest
  lastEnd : s'.lastEnd = Lexeme.endOf s.lastEnd lexemes
  reported : s'.reported = s.reported

namespace State

variable {s middle s' : State} {lexeme : Lexeme} {lexemes rest : List Lexeme}

namespace Takes

theorem refl (s : State) : s.Takes [] s := ⟨rfl, rfl, rfl⟩

theorem eq_of_nil (h : s.Takes [] s') : s' = s := by
  obtain ⟨hrest, hend, hreported⟩ := h
  cases s
  cases s'
  simp_all

theorem append (h : s.Takes lexemes middle) (hrest : middle.Takes rest s') :
    s.Takes (lexemes ++ rest) s' where
  rest := by simp [h.rest, hrest.rest]
  lastEnd := by simp [h.lastEnd, hrest.lastEnd]
  reported := hrest.reported.trans h.reported

theorem split (h : s.Takes (lexemes ++ rest) s') :
    ∃ middle, s.Takes lexemes middle ∧ middle.Takes rest s' := by
  refine ⟨⟨rest.map .lexeme ++ s'.rest, Lexeme.endOf s.lastEnd lexemes, s.reported⟩,
    ⟨?_, rfl, rfl⟩, ⟨rfl, ?_, h.reported⟩⟩
  · simp [h.rest]
  · simp [h.lastEnd]

theorem length_eq (h : s.Takes lexemes s') :
    s.rest.length = lexemes.length + s'.rest.length := by
  simp [h.rest]

end Takes

def advanced (s : State) (lexeme : Lexeme) : State :=
  { s with rest := s.rest.tail, lastEnd := lexeme.span.stop }

theorem advance_apply (s : State) (lexeme : Lexeme) :
    Context.advance lexeme s = .ok PUnit.unit (s.advanced lexeme) := rfl

theorem takes_advanced {items : List Item} (h : s.rest = .lexeme lexeme :: items) :
    s.Takes [lexeme] (s.advanced lexeme) where
  rest := by simp [advanced, h]
  lastEnd := rfl
  reported := rfl

namespace Takes

theorem rest_eq_cons (h : s.Takes (lexeme :: lexemes) s') :
    s.rest = .lexeme lexeme :: (lexemes.map .lexeme ++ s'.rest) := by
  simpa using h.rest

theorem tail (h : s.Takes (lexeme :: lexemes) s') : (s.advanced lexeme).Takes lexemes s' where
  rest := by simp [advanced, h.rest]
  lastEnd := h.lastEnd
  reported := h.reported

theorem shorter (h : s.Takes (lexeme :: lexemes) s') :
    (s.advanced lexeme).rest.length + 1 = s.rest.length := by
  simp [advanced, h.rest_eq_cons]

theorem eq_advanced (h : s.Takes [lexeme] s') : s' = s.advanced lexeme :=
  h.tail.eq_of_nil

theorem peek (h : s.Takes (lexeme :: lexemes) s') (context : Context) :
    context.peek s = .ok lexeme s := by
  have hclear : (splitFaults s.rest).1 = [] := by rw [h.rest_eq_cons]; rfl
  have hpeek := context.peek_of_nil hclear
  rwa [h.rest_eq_cons] at hpeek

end Takes

theorem takes_all (h : s.rest = lexemes.map .lexeme) :
    s.Takes lexemes { s with rest := [], lastEnd := Lexeme.endOf s.lastEnd lexemes } :=
  ⟨by simp [h], rfl, rfl⟩

theorem takes_upcoming {context : Context} (h : lexeme = context.upcoming s.rest)
    (hend : lexeme.token ≠ .sourceEnd) : s.Takes [lexeme] (s.advanced lexeme) := by
  unfold Context.upcoming at h
  split at h
  · rename_i next rest hrest
    exact takes_advanced (h ▸ hrest)
  · rw [h] at hend
    exact absurd rfl hend

end State

/-! ## Contexts of the grammar -/

namespace Context

def inIndex (context : Context) : Bool := context.groups.head? == some .bracket

def room (context : Context) : Nat := context.options.maxDepth - context.depth

theorem room_inside (context : Context) (closer : Closer) :
    (context.inside closer).room = context.room - 1 := by
  simp only [room, inside]
  omega

/-- A row ends in front of these items: no fault comes first, and the next token closes the row. -/
def Stops (context : Context) (items : List Item) : Prop :=
  (splitFaults items).1 = [] ∧ context.closes (context.upcoming items).token = true

theorem stops_of_lexeme {context : Context} {lexeme : Lexeme}
    (h : context.closes lexeme.token = true) (items : List Item) :
    context.Stops (.lexeme lexeme :: items) := ⟨rfl, h⟩

theorem stops_nil (context : Context) : context.Stops [] := ⟨rfl, rfl⟩

theorem closes_congr (token : Token) (c c' : Context) (h : c.groups = c'.groups) :
    c.closes token = c'.closes token := by
  cases token <;> simp only [closes, h]

theorem startsArgument_congr (token : Token) (c c' : Context) (h : c.groups = c'.groups) :
    c.startsArgument token = c'.startsArgument token := by
  simp only [startsArgument, closes_congr token c c' h]

theorem ne_sourceEnd_of_closes {context : Context} {lexeme : Lexeme}
    (h : context.closes lexeme.token = false) :
    lexeme.token ≠ .sourceEnd := by
  intro htoken
  rw [htoken] at h
  cases h

theorem closes_of_startsArgument {context : Context} {lexeme : Lexeme}
    (h : context.startsArgument lexeme.token = true) :
    context.closes lexeme.token = false ∧ lexeme.token.script? = none := by
  unfold startsArgument at h
  rw [Bool.and_eq_true, Bool.not_eq_true'] at h
  refine ⟨h.1, ?_⟩
  generalize lexeme.token = token at h ⊢
  cases token <;> first | rfl | exact absurd h.2 (by simp)

end Context

end TexMath
