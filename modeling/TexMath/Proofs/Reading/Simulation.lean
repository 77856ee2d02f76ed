import TexMath.Proofs.Reading.Composition

/-!
# Relations that the rules keep

Two readings of one source often differ in a few basic steps only.  `Reading.Simulation` is what a
relation between readings has to satisfy in those steps and in their composition; whatever is
composed of these steps then keeps it, the reading of a whole source among them.
-/

namespace TexMath

/-- The relation holds of the basic steps in two contexts of the given kind, and readings composed
of related steps are related. -/
structure Reading.Simulation (contexts : Context → Context → Prop)
    (related : ∀ {α : Type}, Reading α → Reading α → Prop) : Prop where
  groups : ∀ {c c' : Context}, contexts c c' → c.groups = c'.groups
  allowEmpty : ∀ {c c' : Context}, contexts c c' → c.options.allowEmpty = c'.options.allowEmpty
  sourceEnd : ∀ {c c' : Context}, contexts c c' → c.sourceEnd = c'.sourceEnd
  enter : ∀ {c c' : Context} (closer : Closer), contexts c c' →
    contexts { c with groups := closer :: c.groups } { c' with groups := closer :: c'.groups }
  pure : ∀ {α : Type} (a : α), related (pure a) (pure a)
  bind : ∀ {α β : Type} {read read' : Reading α} {next next' : α → Reading β},
    related read read' → (∀ a, related (next a) (next' a)) →
      related (read >>= next) (read' >>= next')
  advance : ∀ next : Lexeme, related (Context.advance next) (Context.advance next)
  lastEnd : related lastEnd lastEnd
  report : ∀ {c c' : Context}, contexts c c' → ∀ error : ParseError,
    related (c.report error) (c'.report error)
  peek : ∀ {c c' : Context}, contexts c c' → related c.peek c'.peek
  deeper : ∀ {α : Type} {c c' : Context} (place : Span) {read : Context → Reading α},
    contexts c c' → (∀ {d d' : Context}, contexts d d' → related (read d) (read d')) →
      related (c.deeper place read) (c'.deeper place read)
  missingArgument : ∀ {c c' : Context}, contexts c c' → ∀ (command : String) (next : Span),
    related (Readers.missingArgument c command next) (Readers.missingArgument c' command next)

namespace Reading.Simulation

variable {contexts : Context → Context → Prop}
  {related : ∀ {α : Type}, Reading α → Reading α → Prop}

theorem composed (sim : Simulation contexts related) {α : Type} {stage : Stage}
    {read : Context → Reading α} (composition : Composition stage read) {c c' : Context}
    (h : contexts c c') : related (read c) (read c') := by
  induction composition generalizing c c' with
  | pure a => exact sim.pure a
  | bind _ _ hfirst hrest => exact sim.bind (hfirst h) fun a => hrest a h
  | peek _ hrest => exact sim.bind (sim.peek h) fun l => hrest l h
  | advance _ _ hrest => exact sim.bind (sim.advance _) fun _ => hrest h
  | report cause place _ => exact sim.report h ⟨cause, place⟩
  | missing command place => exact sim.missingArgument h command place
  | ending formula =>
      change related (c.ending formula) (c'.ending formula)
      unfold Context.ending
      rw [sim.allowEmpty h, sim.sourceEnd h]
      split
      · exact sim.bind (sim.report h _) fun _ => sim.pure formula
      · exact sim.pure formula
  | lastEnd => exact sim.lastEnd
  | ite _ _ hholds hfails =>
      split
      · exact hholds ‹_› h
      · exact hfails ‹_› h
  | ask hgroups _ _ hyes hno =>
      dsimp only
      rw [hgroups c c' (sim.groups h)]
      split
      · exact hyes ⟨c', ‹_›⟩ h
      · exact hno ⟨c', Bool.eq_false_of_not_eq_true ‹_›⟩ h
  | deeper _ hinner => exact sim.deeper _ h fun hinside => hinner hinside
  | inGroup _ hinner => exact sim.deeper _ (sim.enter _ h) fun hinside => hinner hinside
  | less _ _ hinner => exact hinner h

theorem root (sim : Simulation contexts related) (bound : Nat) {c c' : Context}
    (h : contexts c c') :
    related ((Readers.upTo bound).root c) ((Readers.upTo bound).root c') :=
  sim.composed (Readers.composed bound).root h

end Reading.Simulation

end TexMath
