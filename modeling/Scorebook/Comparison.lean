import Scorebook.Nominal.Comparison
import Scorebook.Numeric.Comparison
import Scorebook.Ordinal.Comparison
import Scorebook.Summary

/-!
# The comparison of two experiments

One pass over the stream of rows that two experiments both scored gives the comparison that the
definition of the score asks for. Wins and losses are those of the second experiment.
-/

namespace Scorebook

/-- What is compared, by the kind of score. -/
inductive ComparisonBody (α : Type) where
  | numeric (comparison : Numeric.Comparison α)
  | nominal (comparison : Nominal.Comparison α)
  | ordinal (comparison : Ordinal.Comparison α)
  deriving Repr

/-- The comparison of two experiments on one score. -/
structure Comparison (α : Type) where
  experimentA : String
  experimentB : String
  scoreId : String
  scoringType : ScoringType
  body : ComparisonBody α
  deriving Repr

/-- The number of rows that both experiments scored and that were compared. -/
def Comparison.paired {α : Type} (comparison : Comparison α) : Nat :=
  match comparison.body with
  | .numeric body => body.paired
  | .nominal body => body.paired
  | .ordinal body => body.paired

/-- Compares the sides of a stream of paired rows. A fault or a cancellation leaves no
comparison. -/
def compareRows {α : Type} [Arithmetic α] [TailTable α] (definition : Definition)
    (settings : Settings) (cancelled : Cancelled) (events : List (Event PairedRow)) :
    Except EngineFault (ComparisonBody α) × Cancelled :=
  match definition.scoringType with
  | .numeric | .ragas =>
    finish (fun sample => .numeric (sample.comparison settings)) <|
      pass Numeric.PairedSample.pushRow Numeric.PairedSample.empty cancelled events
  | .nominal =>
    finish (fun sample => .nominal (sample.comparison settings)) <|
      pass Nominal.PairedSample.pushRow (Nominal.PairedSample.empty definition) cancelled events
  | .ordinal =>
    finish (fun sample => .ordinal (sample.comparison settings)) <|
      pass Ordinal.PairedSample.pushRow (Ordinal.PairedSample.empty definition) cancelled events

/-- Compares two experiments on the score of a definition. -/
def compareExperiments {α : Type} [Arithmetic α] [TailTable α] (definition : Definition)
    (experimentA experimentB : String) (settings : Settings) (cancelled : Cancelled)
    (events : List (Event PairedRow)) : Except EngineFault (Comparison α) × Cancelled :=
  finish (fun body =>
      ⟨experimentA, experimentB, definition.scoreId, definition.scoringType, body⟩) <|
    compareRows definition settings cancelled events

end Scorebook
