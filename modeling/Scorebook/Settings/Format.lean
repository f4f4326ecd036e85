import Scorebook.Settings
import Scorebook.Toml.Document
import Scorebook.Word

/-!
# Settings from a settings file

A settings file overrides the standard settings by the keys it gives. A number may be written
without a fraction. Keys that are not known are passed over, whatever their values are.
-/

namespace Scorebook

namespace Settings

/-- Reads a number. -/
def readNumber? : Toml → Option Float
  | .float x => some x
  | .int n => some (Float.ofInt n)
  | _ => none

/-- Reads a truth value. -/
def readBool? : Toml → Option Bool
  | .bool value => some value
  | _ => none

/-- Reads a whole number from zero up to a bound. -/
def readCount? (bound : Int) : Toml → Option Nat
  | .int n => if 0 ≤ n ∧ n ≤ bound then some n.toNat else none
  | _ => none

/-- Reads a list of percentiles, each of which fits a byte. -/
def readPercentiles? : Toml → Option (List Nat)
  | .array items => items.mapM (readCount? 255)
  | _ => none

/-- The value of a key, or the standard one when the file does not give the key. A table is no
value. -/
def setting? {α : Type} (key : String) (read? : Toml → Option α) (standard : α)
    (entries : Toml.Entries) : Option α :=
  match entries.get? key with
  | none => some standard
  | some (.value content) => read? content
  | some _ => none

/-- The settings of a file. -/
def ofEntries? (entries : Toml.Entries) : Option Settings := do
  return {
    zCritical := ← setting? "z_critical" readNumber? standard.zCritical entries
    significanceLevel :=
      ← setting? "significance_level" readNumber? standard.significanceLevel entries
    continuityCorrection :=
      ← setting? "continuity_correction" readBool? standard.continuityCorrection entries
    percentiles := ← setting? "ordinal_percentiles" readPercentiles? standard.percentiles entries
    maxWorkers := ← setting? "max_workers" (readCount? Word.greatest) standard.maxWorkers entries }

/-- Reads the settings of a file. They may still be out of range. -/
def ofText? (text : String) : Option Settings := (Toml.ofText? text).bind ofEntries?

end Settings

end Scorebook
