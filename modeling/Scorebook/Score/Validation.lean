import Scorebook.Fault

/-!
# Usable definitions

An ordinal score needs a scale, and on it every label and every rank may occur once. A nominal
scale is optional, its labels may occur once, and its ranks mean nothing.
-/

namespace Scorebook

namespace Definition

/-- Walks along a scale with the labels and ranks seen so far. A repeated label is found before
a repeated rank of the same entry. -/
def checkEntries (scoreId : String) (ranked : Bool) :
    List String → List Int → List ScaleEntry → Except DefinitionFault Unit
  | _, _, [] => .ok ()
  | labels, ranks, entry :: rest =>
    if entry.label ∈ labels then .error (.duplicateLabel scoreId entry.label)
    else if ranked ∧ entry.rank ∈ ranks then .error (.duplicateRank scoreId entry.rank)
    else checkEntries scoreId ranked (entry.label :: labels) (entry.rank :: ranks) rest

/-- Accepts a definition that can be aggregated, and otherwise names its first offender. -/
def validate (definition : Definition) : Except DefinitionFault Unit :=
  let ranked := definition.scoringType = .ordinal
  if ranked ∧ definition.entries.isEmpty then
    .error (.scaleMissing definition.scoreId definition.scoringType.name)
  else checkEntries definition.scoreId ranked [] [] definition.entries

end Definition

end Scorebook
