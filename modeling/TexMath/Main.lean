import TexMath.CommandLine.Run

/-!
# The program

Reads the files and streams that a run asks for, and writes what it gives.
-/

namespace TexMath.CommandLine

def faultOf : IO.Error → FileFault
  | .noFileOrDirectory .. => .missing
  | .noSuchThing .. => .missing
  | .inappropriateType _ _ details =>
      if details = "Is a directory" then .isDirectory else .underFile
  | error => .other (toString error)

def readSettings (path : String) : IO (Except FileFault String) := do
  try
    let bytes ← IO.FS.readBinFile path
    match String.fromUTF8? bytes with
    | some content => pure (.ok content)
    | none => pure (.error .notText)
  catch error => pure (.error (faultOf error))

end TexMath.CommandLine

open TexMath.CommandLine in
def main (arguments : List String) : IO UInt32 := do
  let library := Library.plain
  let mut content : Except FileFault String := .error .missing
  let mut input := ByteArray.empty
  if let .ok invocation := library.invocation arguments then
    if let some path := invocation.settingsFile then
      content ← readSettings path
    if library.readsInput invocation content then
      input ← (← IO.getStdin).readBinToEnd
  let output := library.run arguments content input
  (← IO.getStdout).putStr output.stdout
  (← IO.getStderr).putStr output.stderr
  pure output.code.toUInt32
