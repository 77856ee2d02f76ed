import TexMath.CommandLine.Arguments
import TexMath.CommandLine.Drawing
import TexMath.Toml.Document

/-!
# Runs of the program

The program with plain versions of the libraries it needs.
-/

namespace TexMath

namespace CommandLine

def Library.plain : Library where
  invocation arguments := (Request.ofArguments arguments).invocation
  document text :=
    match Toml.read? text with
    | some data => .ok data
    | none => .error none
  mismatch _ := none
  draw notice source := some (notice.drawn source)

def run (request : Request) (content : Except FileFault String) (input : ByteArray) : Output :=
  match request.invocation with
  | .error output => output
  | .ok invocation => Library.plain.perform invocation content input

end CommandLine

def Settings.read? (document : String) : Option Settings :=
  (CommandLine.Library.plain.settings document).toOption

end TexMath
