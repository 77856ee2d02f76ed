import TexMath.Data
import TexMath.Reading.Basic

/-!
# Settings

The settings of a reading as they stand in a settings file.  A missing setting keeps its usual
value, and fields that are no settings are passed over.
-/

namespace TexMath

def Data.setting? {α : Type} (data : Data) (name : String) (read : Data → Option α) (usual : α) :
    Option α :=
  match data.field? name with
  | none => some usual
  | some value => read value

namespace ReadingOptions

def ofData? (data : Data) : Option ReadingOptions :=
  match data with
  | .record _ => do
      let usual : ReadingOptions := {}
      let maxDepth ← data.setting? "max-nesting-depth" Data.nat? usual.maxDepth
      let allowEmpty ← data.setting? "allow-empty-input" Data.bool? usual.allowEmpty
      let fillMissing ←
        data.setting? "placeholders-for-missing-arguments" Data.bool? usual.fillMissing
      pure { maxDepth, allowEmpty, fillMissing }
  | _ => none

def toData (options : ReadingOptions) : Data :=
  .record
    [("max-nesting-depth", .integer options.maxDepth),
      ("allow-empty-input", .bool options.allowEmpty),
      ("placeholders-for-missing-arguments", .bool options.fillMissing)]

theorem ofData?_toData (options : ReadingOptions) : ofData? options.toData = some options := rfl

end ReadingOptions

structure Settings where
  options : ReadingOptions := {}
  allErrors : Bool := false
deriving DecidableEq, Repr

namespace Settings

def ofData? (data : Data) : Option Settings := do
  let options ← ReadingOptions.ofData? data
  let allErrors ← data.setting? "all-errors" Data.bool? false
  pure { options, allErrors }

end Settings

end TexMath
