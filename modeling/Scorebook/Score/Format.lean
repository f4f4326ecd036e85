import Scorebook.Json.Value
import Scorebook.Score.Definition
import Scorebook.Word

/-!
# Definitions as interchange values

A definition is an object of named fields, or the array of its fields in their order of
declaration. Optional fields may be null or left out, and unknown fields are passed over. What
is written reads back as the same definition, and absent parts are not written.
-/

namespace Scorebook

/-- Why a value is not a definition. -/
inductive FormatFault where
  | missingField (name : String)
  | unknownScoringType (name : String)
  /-- A part has the wrong kind, or an array the wrong length. -/
  | malformed (expected : String)
  deriving Repr, DecidableEq

namespace FormatFault

/-- A name as it stands inside a message. -/
def ticked (name : String) : String := "\x60" ++ name ++ "\x60"

/-- The text of a format fault. -/
def message : FormatFault → String
  | missingField name => "missing field " ++ ticked name
  | unknownScoringType name =>
    "unknown variant " ++ ticked name ++ ", expected one of "
      ++ ", ".intercalate (ScoringType.all.map (ticked ·.name))
  | malformed expected => "invalid value, expected " ++ expected

end FormatFault

namespace Format

/-- Reads a text. -/
def text : Json → Except FormatFault String
  | .str text => .ok text
  | _ => .error (.malformed "a string")

/-- Reads a signed whole number of 64 bits. -/
def code : Json → Except FormatFault Int
  | .int n => if Word.isSigned n then .ok n else .error (.malformed "a 64-bit integer")
  | _ => .error (.malformed "a 64-bit integer")

/-- Reads a list whose items have one form. -/
def list {α : Type} (item : Json → Except FormatFault α) : Json → Except FormatFault (List α)
  | .arr items => items.mapM item
  | _ => .error (.malformed "an array")

/-- Reads a part that may be null. -/
def optional {α : Type} (part : Json → Except FormatFault α) : Json → Except FormatFault (Option α)
  | .null => .ok none
  | value => some <$> part value

/-- Reads a member if there is one of that name. -/
def member {α : Type} (name : String) (part : Json → Except FormatFault α)
    (members : List (String × Json)) : Except FormatFault (Option α) :=
  match Json.member? name members with
  | some value => some <$> part value
  | none => .ok none

/-- A member that must be there. -/
def required {α : Type} (name : String) : Option α → Except FormatFault α
  | some x => .ok x
  | none => .error (.missingField name)

/-- Reads an item that may be missing at the end of an array. -/
def trailing {α : Type} (part : Json → Except FormatFault α) :
    Option Json → Except FormatFault (Option α)
  | none => .ok none
  | some value => optional part value

/-- The fault of an array with too few or too many items. -/
def wrongLength : FormatFault := .malformed "an array with one item for each field"

end Format

open Format

namespace ScoringType

/-- Reads a scoring type from its name. -/
def named (name : String) : Except FormatFault ScoringType :=
  match ofName? name with
  | some scoringType => .ok scoringType
  | none => .error (.unknownScoringType name)

/-- Reads a scoring type: its name, or an object whose only member has that name and is null. -/
def ofJson : Json → Except FormatFault ScoringType
  | .str name => named name
  | .obj ((name, value) :: rest) =>
    if rest.all (·.1 = name) then do
      let scoringType ← named name
      match (rest.getLast?.map (·.2)).getD value with
      | .null => .ok scoringType
      | _ => .error (.malformed "null")
    else .error (.malformed "an object with a single member")
  | _ => .error (.malformed "a scoring type")

end ScoringType

namespace ScaleEntry

/-- Reads an entry of a scale. -/
def ofJson : Json → Except FormatFault ScaleEntry
  | .obj members => do
    let label ← member "label" text members
    let rank ← member "value" code members
    return ⟨← required "label" label, ← required "value" rank⟩
  | .arr [label, rank] => return ⟨← text label, ← code rank⟩
  | .arr _ => .error wrongLength
  | _ => .error (.malformed "a scale entry")

/-- Writes an entry of a scale. -/
def toJson (entry : ScaleEntry) : Json :=
  .obj [("label", .str entry.label), ("value", .int entry.rank)]

end ScaleEntry

namespace PassRule

/-- Reads a pass rule. -/
def ofJson : Json → Except FormatFault PassRule
  | .obj members => do
    let acceptable ← member "acceptable_set" (optional (list text)) members
    let threshold ← member "threshold_rank" (optional code) members
    return ⟨acceptable.join, threshold.join⟩
  | .arr items =>
    if items.length ≤ 2 then
      return ⟨← trailing (list text) items[0]?, ← trailing code items[1]?⟩
    else .error wrongLength
  | _ => .error (.malformed "a pass rule")

/-- Writes a pass rule. -/
def toJson (rule : PassRule) : Json :=
  .obj (Json.optionalMember "acceptable_set" (fun labels => .arr (labels.map .str)) rule.acceptable
    ++ Json.optionalMember "threshold_rank" .int rule.threshold)

end PassRule

namespace Definition

/-- Reads a definition. The members of an object are read in the order of their names, and a
required one is only missed when all the others could be read. -/
def ofJson : Json → Except FormatFault Definition
  | .obj members => do
    let passRule ← member "ordinal_config" (optional PassRule.ofJson) members
    let scale ← member "scale" (optional (list ScaleEntry.ofJson)) members
    let scoreId ← member "score_id" text members
    let scoringType ← member "scoring_type" ScoringType.ofJson members
    return ⟨← required "score_id" scoreId, ← required "scoring_type" scoringType,
      scale.join, passRule.join⟩
  | .arr (scoreId :: scoringType :: items) =>
    if items.length ≤ 2 then
      return ⟨← text scoreId, ← ScoringType.ofJson scoringType,
        ← trailing (list ScaleEntry.ofJson) items[0]?, ← trailing PassRule.ofJson items[1]?⟩
    else .error wrongLength
  | .arr _ => .error wrongLength
  | _ => .error (.malformed "a score definition")

/-- Writes a definition. -/
def toJson (definition : Definition) : Json :=
  .obj ([("score_id", .str definition.scoreId),
      ("scoring_type", .str definition.scoringType.name)]
    ++ Json.optionalMember "scale" (fun entries => .arr (entries.map ScaleEntry.toJson))
      definition.scale
    ++ Json.optionalMember "ordinal_config" PassRule.toJson definition.passRule)

end Definition

end Scorebook
