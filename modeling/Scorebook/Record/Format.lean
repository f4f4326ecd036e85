import Scorebook.Json.Syntax
import Scorebook.Record
import Scorebook.Word

/-!
# Records as interchange values

A record is an object of named fields, or the array of its fields in their order of
declaration. A known field may occur once. A field that is not known is passed over, and then
need not even have a value: a number in it may be out of range.
-/

namespace Scorebook

namespace RawValue

/-- Reads a raw value: a number or a text. -/
def ofJson? : Json → Option RawValue
  | .int n => some (.number (Float.ofInt n))
  | .num x => some (.number x)
  | .str text => some (.label text)
  | _ => none

/-- Writes a raw value. -/
def toJson : RawValue → Json
  | number x => .num x
  | label text => .str text

end RawValue

namespace RecordStatus

/-- Reads a state: its name, or an object whose only member has that name and is null. -/
def ofJson? : Json → Option RecordStatus
  | .str name => some (ofName name)
  | .obj [(name, .null)] => some (ofName name)
  | _ => none

end RecordStatus

namespace Record

/-- Reads a text. -/
def text? : Json → Option String
  | .str text => some text
  | _ => none

/-- Reads a row key: a whole number of 64 bits without a sign. -/
def rowKey? : Json → Option Nat
  | .int n => if Word.isUnsigned n then some n.toNat else none
  | _ => none

/-- Reads a part that may be null. -/
def nullable? {α : Type} (part : Json → Option α) : Json → Option (Option α)
  | .null => some none
  | value => (part value).map some

/-- The value of a known field, absent or given once. A value of nothing stands for a part of a
document that has no value. -/
def field? (name : String) (members : List (String × Option Json)) : Option (Option Json) :=
  match members.filter (·.1 = name) with
  | [] => some none
  | [(_, some value)] => some (some value)
  | _ => none

/-- Reads a field that must be there. -/
def required? {α : Type} (name : String) (part : Json → Option α)
    (members : List (String × Option Json)) : Option α := do
  part (← ← field? name members)

/-- Reads a field that may be absent or null. -/
def optional? {α : Type} (name : String) (part : Json → Option α)
    (members : List (String × Option Json)) : Option (Option α) := do
  match ← field? name members with
  | none => some none
  | some value => nullable? part value

/-- Reads the named fields of a record. -/
def ofMembers? (members : List (String × Option Json)) : Option Record := do
  return {
    evaluationId := ← required? "evaluation_id" text? members
    scoreId := ← required? "score_id" text? members
    experimentId := ← optional? "experiment_id" text? members
    rowKey := ← required? "row_key" rowKey? members
    status := ← required? "status" RecordStatus.ofJson? members
    value := ← optional? "value" RawValue.ofJson? members }

/-- Reads the fields of a record in their order; the value may be missing at the end. -/
def ofItems? : List Json → Option Record
  | evaluationId :: scoreId :: experimentId :: rowKey :: status :: rest => do
    let value ← match rest with
      | [] => some .null
      | [value] => some value
      | _ => none
    return {
      evaluationId := ← text? evaluationId
      scoreId := ← text? scoreId
      experimentId := ← nullable? text? experimentId
      rowKey := ← rowKey? rowKey
      status := ← RecordStatus.ofJson? status
      value := ← nullable? RawValue.ofJson? value }
  | _ => none

/-- Reads a record from a value. -/
def ofJson? : Json → Option Record
  | .obj members => ofMembers? (members.map fun (name, value) => (name, some value))
  | .arr items => ofItems? items
  | _ => none

/-- Reads a record from a document. Only the parts that are read need have a value, and the
names of all fields must be texts. -/
def ofSyntax? : JsonSyntax → Option Record
  | .object members => do
    let named ← members.mapM fun (name, part) => do
      return (← JsonSyntax.spelling? name, part.value?)
    ofMembers? named
  | .array items => do ofItems? (← items.mapM JsonSyntax.value?)
  | _ => none

/-- Reads a record from a text. -/
def ofText? (text : String) : Option Record := do ofSyntax? (← JsonSyntax.ofText? text)

/-- Writes a record. A scope of the whole dataset is written by leaving the experiment out, and
a missing value as null. -/
def toJson (record : Record) : Json :=
  .obj ([("evaluation_id", .str record.evaluationId), ("score_id", .str record.scoreId)]
    ++ Json.optionalMember "experiment_id" .str record.experimentId
    ++ [("row_key", .int record.rowKey), ("status", .str record.status.name),
      ("value", Json.ofOption RawValue.toJson record.value)])

end Record

end Scorebook
