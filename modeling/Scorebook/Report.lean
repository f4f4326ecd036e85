import Scorebook.Record
import Scorebook.Summary

/-!
# The statistics report

A report lists the summaries of all scores of a scope, and beside them the scores whose summary
could not be computed. Populations without scored rows are left out.
-/

namespace Scorebook

/-- The summary of one score. -/
structure ReportEntry (α : Type) where
  scoreId : String
  experimentId : Option String
  summary : Summary α
  deriving Repr

/-- A score that could not be summarized. -/
structure ReportFailure where
  scoreId : String
  message : String
  retryable : Bool
  deriving Repr, DecidableEq

/-- The statistics of an evaluation scope. -/
structure Report (α : Type) where
  evaluationId : String
  scope : Scope
  entries : List (ReportEntry α)
  failures : List ReportFailure
  deriving Repr

namespace Report

variable {α : Type}

/-- The report without scores. -/
def empty (evaluationId : String) (scope : Scope) : Report α := ⟨evaluationId, scope, [], []⟩

/-- Adds the summary of a score unless it has no scored rows, and says whether it was added. -/
def pushSummary (report : Report α) (scoreId : String) (scope : Scope) (summary : Summary α) :
    Bool × Report α :=
  if summary.scored = 0 then (false, report)
  else
    let entry := ⟨scoreId, scope.experimentId?, summary⟩
    (true, { report with entries := report.entries ++ [entry] })

/-- Adds a score that could not be summarized. -/
def pushFailure (report : Report α) (scoreId : String) (fault : EngineFault) : Report α :=
  { report with failures := report.failures ++ [⟨scoreId, fault.message, fault.retryable⟩] }

/-- Orders entries and failures by score. Several about one score keep their order. -/
def sort (report : Report α) : Report α :=
  { report with
    entries := report.entries.mergeSort (·.scoreId ≤ ·.scoreId)
    failures := report.failures.mergeSort (·.scoreId ≤ ·.scoreId) }

/-- The first entry of a score. -/
def entry? (report : Report α) (scoreId : String) : Option (ReportEntry α) :=
  report.entries.find? (·.scoreId = scoreId)

/-- Whether every score could be summarized. -/
def isComplete (report : Report α) : Bool := report.failures.isEmpty

end Report

end Scorebook
