import Scorebook.Join
import Scorebook.Nominal.Summary
import Scorebook.Numeric.Summary
import Scorebook.Ordinal.Summary

/-!
# The summary of a population

One pass over the stream of a population gives the summary that its definition asks for. Nominal
codes depend on the order of the rows, which is the order of their keys.
-/

namespace Scorebook

/-- The statistics of one population. -/
inductive Summary (α : Type) where
  | numeric (summary : Numeric.Summary α)
  | nominal (summary : Nominal.Summary α)
  | ordinal (summary : Ordinal.Summary α)
  deriving Repr

namespace Summary

variable {α : Type}

/-- The number of scored rows. -/
def scored : Summary α → Nat
  | numeric summary => summary.scored
  | nominal summary => summary.scored
  | ordinal summary => summary.scored

/-- The kind of a summary as it is named in reports. -/
def kind : Summary α → String
  | numeric _ => "numeric"
  | nominal _ => "nominal"
  | ordinal _ => "ordinal"

end Summary

/-- Finishes a pass that succeeded. -/
def finish {σ τ : Type} (f : σ → τ) (result : Except EngineFault σ × Cancelled) :
    Except EngineFault τ × Cancelled :=
  (result.1.map f, result.2)

/-- Counts a row of a nominal population together with the coder. -/
def Nominal.pushCoded (state : Coder × Nominal.Sample) (row : ScoredRow) :
    Coder × Nominal.Sample :=
  (state.2.pushRaw state.1 row.raw).2

/-- Summarizes the stream of a population. A fault or a cancellation leaves no summary. -/
def summarize {α : Type} [Arithmetic α] (definition : Definition) (settings : Settings)
    (cancelled : Cancelled) (events : List (Event ScoredRow)) :
    Except EngineFault (Summary α) × Cancelled :=
  let coder := Coder.ofDefinition definition
  match definition.scoringType with
  | .numeric | .ragas =>
    finish (fun sample => .numeric (sample.summary settings)) <|
      pass (fun sample row => sample.pushRaw row.raw) Numeric.Sample.empty cancelled events
  | .nominal =>
    finish (fun (coder, sample) => .nominal (sample.summary coder)) <|
      pass Nominal.pushCoded (coder, .empty) cancelled events
  | .ordinal =>
    finish (fun sample => .ordinal (sample.summary coder settings.percentiles)) <|
      pass (fun sample row => (sample.pushRaw coder row.raw).2)
        (Ordinal.Sample.empty definition.passRule coder) cancelled events

end Scorebook
