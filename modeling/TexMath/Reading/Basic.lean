import TexMath.Token.Basic

/-!
# The state of a reading

A reading goes through the significant items of a source.  `Context` is what holds at a place in
the source: the options, the groups that are open there and the depth.  `State` is what a reading
changes: the items that remain, the end of the last lexeme taken and the errors reported so far.
-/

namespace TexMath

structure ReadingOptions where
  /-- How deep groups, arguments, scripts and cells may be nested. -/
  maxDepth : Nat := 128
  allowEmpty : Bool := true
  fillMissing : Bool := false
deriving DecidableEq, Repr

inductive ReadingMode where
  | firstError
  | collect
deriving DecidableEq, Repr

inductive Closer where
  | brace
  | bracket
  | right
  | cell
deriving DecidableEq, Repr

structure Context where
  options : ReadingOptions
  mode : ReadingMode
  sourceEnd : Nat
  /-- The open groups, the innermost first. -/
  groups : List Closer := []
  depth : Nat := 0
deriving DecidableEq, Repr

structure State where
  rest : List Item
  lastEnd : Nat := 0
  /-- The errors reported so far, the latest first. -/
  reported : List ParseError := []
deriving DecidableEq, Repr

/-- A step of a reading.  An error that it throws ends the whole reading. -/
abbrev Reading := EStateM ParseError State

def splitFaults : List Item → List ParseError × List Item
  | .fault error :: rest => (error :: (splitFaults rest).1, (splitFaults rest).2)
  | rest => ([], rest)

namespace Context

/-! ## Tokens in context -/

/-- Whether the token ends the row of atoms that is being read.  A brace, a closing fence or the
end of an environment does so for any open group of its kind, the other closers only for the
innermost group. -/
def closes (context : Context) : Token → Bool
  | .sourceEnd => true
  | .braceClose => context.groups.contains .brace
  | .bracketClose => context.groups.head? == some .bracket
  | .environmentEnd _ => context.groups.contains .cell
  | .columnMark => context.groups.head? == some .cell
  | .command name =>
      if name = "right" then context.groups.contains .right
      else if name = "\\" then context.groups.head? == some .cell
      else false
  | _ => false

/-- The commands with which no argument begins, because they belong to what stands around it. -/
def directives : List String := ["right", "limits", "nolimits", "\\"]

def startsArgument (context : Context) (token : Token) : Bool :=
  !context.closes token &&
    match token with
    | .braceClose | .superscriptMark | .subscriptMark | .columnMark | .environmentEnd _ => false
    | .command name => !directives.contains name
    | _ => true

/-! ## Steps -/

/-- Every error passes through here, but for the one about nesting, which always ends the
reading. -/
def report (context : Context) (error : ParseError) : Reading Unit :=
  match context.mode with
  | .firstError => throw error
  | .collect => modify fun state => { state with reported := error :: state.reported }

/-- The next lexeme, which stays the next one.  Faults before it are reported and passed over. -/
def peek (context : Context) : Reading Lexeme := do
  let (faults, rest) := splitFaults (← get).rest
  modify fun state => { state with rest }
  faults.forM context.report
  match rest with
  | .lexeme next :: _ => pure next
  | _ => pure ⟨.sourceEnd, .point context.sourceEnd, ""⟩

def advance (next : Lexeme) : Reading Unit :=
  modify fun state => { state with rest := state.rest.tail, lastEnd := next.span.stop }

def deeper {α : Type} (context : Context) (place : Span) (read : Context → Reading α) :
    Reading α :=
  if context.depth < context.options.maxDepth then read { context with depth := context.depth + 1 }
  else throw ⟨.nestingTooDeep, place⟩

def inGroup {α : Type} (context : Context) (closer : Closer) (place : Span)
    (read : Context → Reading α) : Reading α :=
  { context with groups := closer :: context.groups }.deeper place read

end Context

def lastEnd : Reading Nat := return (← get).lastEnd

end TexMath
