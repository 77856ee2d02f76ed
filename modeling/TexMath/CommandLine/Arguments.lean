import TexMath.CommandLine.Program

/-!
# Arguments

A reader of arguments for the program.  It goes from left to right; the first of a misuse, a call
for help and a call for the version decides.
-/

namespace TexMath.CommandLine

inductive Request where
  | run (invocation : Invocation)
  | help
  | version
  | misuse
deriving DecidableEq, Repr

inductive ValueOption where
  | formula
  | settings
deriving DecidableEq, Repr

inductive Flag where
  | allErrors
  | tree
  | listCommands
  | noColor
  | verbose
  | help
  | version
deriving DecidableEq, Repr

inductive Switch where
  | valueOption (option : ValueOption)
  | flag (flag : Flag)
deriving DecidableEq, Repr

namespace Switch

def longNames : List (String × Switch) :=
  [("formula", .valueOption .formula), ("config", .valueOption .settings),
    ("all-errors", .flag .allErrors), ("tree", .flag .tree),
    ("list-commands", .flag .listCommands), ("no-color", .flag .noColor),
    ("verbose", .flag .verbose), ("help", .flag .help), ("version", .flag .version)]

def shortNames : List (Char × Switch) :=
  [('f', .valueOption .formula), ('c', .valueOption .settings), ('a', .flag .allErrors),
    ('t', .flag .tree), ('v', .flag .verbose), ('h', .flag .help), ('V', .flag .version)]

end Switch

/-- What reading the arguments gives, or a request that is settled before they are all read. -/
abbrev Settled := Except Request

namespace Invocation

def set (invocation : Invocation) : Flag → Settled Invocation
  | .allErrors =>
      if invocation.allErrors then throw .misuse else pure { invocation with allErrors := true }
  | .tree => if invocation.tree then throw .misuse else pure { invocation with tree := true }
  | .listCommands =>
      if invocation.listCommands then throw .misuse
      else pure { invocation with listCommands := true }
  | .noColor =>
      if invocation.noColor then throw .misuse else pure { invocation with noColor := true }
  | .verbose => pure { invocation with verbosity := invocation.verbosity + 1 }
  | .help => throw .help
  | .version => throw .version

def give (invocation : Invocation) (option : ValueOption) (value : String) : Settled Invocation :=
  match option with
  | .formula =>
      if invocation.formula.isSome then throw .misuse
      else pure { invocation with formula := some value }
  | .settings =>
      if invocation.settingsFile.isSome || value.isEmpty then throw .misuse
      else pure { invocation with settingsFile := some value }

/-- Reads an argument.  An option without a value in the argument itself is given back: the next
argument is its value. -/
abbrev Reader := Invocation → Settled (Invocation × Option ValueOption)

/-- Reads the letters behind a single dash.  What follows the letter of an option is its value,
with or without an equals sign before it. -/
def readShort : List Char → Reader
  | [], invocation => pure (invocation, none)
  | c :: rest, invocation =>
      match Switch.shortNames.lookup c with
      | none => throw .misuse
      | some (.flag flag) => do readShort rest (← invocation.set flag)
      | some (.valueOption option) =>
          match rest with
          | [] => pure (invocation, some option)
          | '=' :: value => do pure (← invocation.give option (String.ofList value), none)
          | value => do pure (← invocation.give option (String.ofList value), none)

def readLong (text : List Char) : Reader := fun invocation =>
  let name := String.ofList (text.takeWhile (· != '='))
  let value :=
    match text.dropWhile (· != '=') with
    | [] => none
    | _ :: value => some (String.ofList value)
  match Switch.longNames.lookup name, value with
  | none, _ => throw .misuse
  | some (.flag flag), none => do pure (← invocation.set flag, none)
  | some (.flag _), some _ => throw .misuse
  | some (.valueOption option), none => pure (invocation, some option)
  | some (.valueOption option), some value => do pure (← invocation.give option value, none)

def readArgument (argument : String) : Reader :=
  match argument.toList with
  | '-' :: '-' :: text => readLong text
  | '-' :: c :: rest => readShort (c :: rest)
  | _ => fun _ => throw .misuse

def isValue (argument : String) : Bool :=
  match argument.toList with
  | '-' :: _ :: _ => false
  | _ => true

def readAll (invocation : Invocation) : List String → Settled Invocation
  | [] => pure invocation
  | argument :: rest =>
      if argument = "--" then
        if rest.isEmpty then pure invocation else throw .misuse
      else do
        match ← readArgument argument invocation with
        | (invocation, none) => readAll invocation rest
        | (invocation, some option) =>
            match rest with
            | [] => throw .misuse
            | value :: rest =>
                if isValue value then do
                  readAll (← invocation.give option value) rest
                else throw .misuse

def isConsistent (invocation : Invocation) : Bool :=
  !(invocation.listCommands && (invocation.formula.isSome || invocation.tree))

end Invocation

namespace Request

def ofArguments (arguments : List String) : Request :=
  match Invocation.readAll {} arguments with
  | .ok invocation => if invocation.isConsistent then .run invocation else .misuse
  | .error request => request

def helpText : String :=
  "Parses LaTeX math into a math list\n\n" ++
  "Usage: mathlist [OPTIONS]\n\n" ++
  "Options:\n" ++
  "  -f, --formula <LATEX>  Specifies a single LaTeX formula; otherwise the formula is read " ++
  "from stdin\n" ++
  "  -c, --config <FILE>    Reads parser settings from a TOML file\n" ++
  "  -a, --all-errors       Reports every error instead of stopping at the first one\n" ++
  "  -t, --tree             Prints the parsed tree instead of the canonical LaTeX\n" ++
  "      --list-commands    Prints all supported command names and exits\n" ++
  "      --no-color         Disables colors in error reports\n" ++
  "  -v, --verbose...       Increases the log level; can be given more than once\n" ++
  "  -h, --help             Print help\n" ++
  "  -V, --version          Print version\n"

def misuseText : String :=
  "usage error\n\nUsage: mathlist [OPTIONS]\n\nFor more information, try '--help'.\n"

def invocation : Request → Except Output Invocation
  | .run invocation => .ok invocation
  | .help => .error { stdout := helpText }
  | .version => .error { stdout := "mathlist-cli 0.1.0\n" }
  | .misuse => .error { code := 2, stderr := misuseText }

end Request

end TexMath.CommandLine
