import TexMath.Canonical
import TexMath.Outline
import TexMath.Reading.Run
import TexMath.Report
import TexMath.Settings

/-!
# The program

A run reads one formula, from its arguments or from the standard input, and writes its canonical
text or its outline.  What other libraries do for it is gathered in `Library`: they read the
arguments and the settings file, and they draw the reports of errors.  `Library.run` says what a
run writes and how it ends, given the settings file and the standard input.
-/

namespace TexMath.CommandLine

structure Invocation where
  formula : Option String := none
  settingsFile : Option String := none
  allErrors : Bool := false
  tree : Bool := false
  listCommands : Bool := false
  noColor : Bool := false
  verbosity : Nat := 0
deriving DecidableEq, Repr

structure Output where
  code : Nat := 0
  stdout : String := ""
  stderr : String := ""
deriving DecidableEq, Repr

inductive FileFault where
  | missing
  | isDirectory
  | underFile
  | notText
  | other (reason : String)
deriving DecidableEq, Repr

def FileFault.message : FileFault → String
  | missing => "No such file or directory (os error 2)"
  | isDirectory => "Is a directory (os error 21)"
  | underFile => "Not a directory (os error 20)"
  | notText => "stream did not contain valid UTF-8"
  | other reason => reason

/-- The parts of the program that are other libraries. -/
structure Library where
  /-- Reads the arguments, or answers them at once: a call for help, or arguments that are none. -/
  invocation : List String → Except Output Invocation
  /-- Reads a settings file, or says what is wrong with it, if it says anything. -/
  document : String → Except (Option String) Data
  /-- Says what is wrong with a settings file of which the data are no settings. -/
  mismatch : String → Option String
  /-- Draws a report of an error in the source. -/
  draw : Notice → String → Option String

def commandsText : String :=
  let names := (Command.supported.map Prod.fst).mergeSort fun a b => a ≤ b
  String.join (names.map fun name => "\\" ++ name ++ "\n")

/-! ## The log -/

inductive LogLevel where
  | debug
  | trace
deriving DecidableEq, Repr

/-- How often verbosity has to be asked for until lines of the level are written. -/
def LogLevel.threshold : LogLevel → Nat
  | debug => 2
  | trace => 3

def LogLevel.name : LogLevel → String
  | debug => "DEBUG"
  | trace => "TRACE"

structure LogLine where
  level : LogLevel
  part : String
  message : String
deriving DecidableEq, Repr

def LogLine.text (line : LogLine) : String :=
  "[" ++ line.level.name ++ " mathlist::" ++ line.part ++ "] " ++ line.message ++ "\n"

def logText (verbosity : Nat) (lines : List LogLine) : String :=
  String.join
    ((lines.filter fun line => line.level.threshold ≤ verbosity).map LogLine.text)

def startLine (source : String) : LogLine := ⟨.trace, "parser", "parsing " ++ Text.quoted source⟩

def recoveryLine (error : ParseError) : LogLine :=
  ⟨.debug, "parser", "recovering after error at " ++ error.display⟩

def settingsLine (path : String) : LogLine := ⟨.debug, "config_file", "loaded config file " ++ path⟩

def collectLog (source : String) (options : ReadingOptions) : List LogLine :=
  startLine source :: (Formula.collect source options).reported.map recoveryLine

def readLog (source : String) (options : ReadingOptions) : List LogLine :=
  match Formula.readUntilError source options with
  | .ok _ => [startLine source]
  | .error _ => startLine source :: collectLog source options

/-! ## Reading the formula -/

structure Attempt where
  outcome : Except (List ParseError) Formula
  log : List LogLine

def attempt (source : String) (options : ReadingOptions) (allErrors : Bool) : Attempt :=
  if allErrors then ⟨Formula.readAll source options, collectLog source options⟩
  else
    match Formula.read source options with
    | .ok formula => ⟨.ok formula, readLog source options⟩
    | .error error => ⟨.error [error], readLog source options⟩

namespace Library

variable (library : Library)

def report (sourceName source : String) (color : Bool) (error : ParseError) : String :=
  (library.draw (error.notice sourceName color) source).getD
    ("Parse error: " ++ error.display ++ "\n")

def answer (invocation : Invocation) (settings : Settings) (earlier : List LogLine)
    (sourceName source : String) : Output :=
  let attempt := attempt source settings.options (invocation.allErrors || settings.allErrors)
  let log := logText invocation.verbosity (earlier ++ attempt.log)
  match attempt.outcome with
  | .ok formula =>
      let text := if invocation.tree then Formula.outline formula else Formula.text formula
      { stdout := text ++ "\n", stderr := log }
  | .error errors =>
      let reports := errors.map (library.report sourceName source !invocation.noColor)
      { code := 2, stderr := log ++ String.join reports }

/-! ## Settings and input -/

def settings (document : String) : Except (Option String) Settings := do
  match Settings.ofData? (← library.document document) with
  | some settings => pure settings
  | none => throw (library.mismatch document)

def loadSettings (path : String) (content : Except FileFault String) : Except String Settings :=
  match content with
  | .error fault => .error ("cannot read '" ++ path ++ "': " ++ fault.message)
  | .ok document =>
      (library.settings document).mapError fun reason =>
        "invalid settings in '" ++ path ++ "'" ++ (reason.map (": " ++ ·)).getD ""

def settingsOf (invocation : Invocation) (content : Except FileFault String) :
    Except String (Settings × List LogLine) :=
  match invocation.settingsFile with
  | none => .ok ({}, [])
  | some path =>
      (library.loadSettings path content).map fun settings => (settings, [settingsLine path])

def readsInput (invocation : Invocation) (content : Except FileFault String) : Bool :=
  !invocation.listCommands && invocation.formula.isNone &&
    (library.settingsOf invocation content).isOk

def perform (invocation : Invocation) (content : Except FileFault String) (input : ByteArray) :
    Output :=
  if invocation.listCommands then { stdout := commandsText }
  else
    match library.settingsOf invocation content with
    | .error reason => { code := 1, stderr := "Config error: " ++ reason ++ "\n" }
    | .ok (settings, log) =>
        match invocation.formula with
        | some source => library.answer invocation settings log "<formula>" source
        | none =>
            match String.fromUTF8? input with
            | some source => library.answer invocation settings log "<stdin>" source
            | none =>
                { code := 1
                  stderr :=
                    logText invocation.verbosity log ++
                      "IO Error: stream did not contain valid UTF-8\n" }

/-- What a run writes, given the content of the settings file that the arguments name, if they name
one, and the standard input. -/
def run (arguments : List String) (content : Except FileFault String) (input : ByteArray) :
    Output :=
  match library.invocation arguments with
  | .error output => output
  | .ok invocation => library.perform invocation content input

end Library

end TexMath.CommandLine
