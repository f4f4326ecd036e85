import Scorebook.Comparison
import Scorebook.Report
import Scorebook.Score.Registry
import Scorebook.Settings
import Scorebook.Store

/-!
# Requests

An engine answers requests about the populations of a source, with definitions that are looked
up by score. The statistics of a scope are best effort: a score that fails is listed in
the report and affects no other score. A comparison has a complete answer or none. All requests
see one cancellation flag, which every request returns as it leaves it.
-/

namespace Scorebook

/-- Where scored rows come from. Listing the scores and opening a stream may fail. -/
structure ScoreSource where
  /-- The scores with rows in a scope of an evaluation. -/
  scoreIds (evaluationId : String) (scope : Scope) : Except SourceFault (List String)
  /-- The stream of a population. -/
  rows (population : Population) : Except SourceFault (List (Event ScoredRow))

namespace ScoreSource

/-- A store as a source. Nothing fails there. -/
def ofStore (store : Store) : ScoreSource where
  scoreIds evaluationId scope := .ok (store.scoreIds evaluationId scope)
  rows population := .ok (store.stream population)

/-- The stream of the rows that two experiments both scored. The first experiment is opened
first. -/
def pairedRows (source : ScoreSource) (evaluationId scoreId experimentA experimentB : String) :
    Except SourceFault (List (Event PairedRow)) := do
  let left ← source.rows ⟨evaluationId, scoreId, .experiment experimentA⟩
  let right ← source.rows ⟨evaluationId, scoreId, .experiment experimentB⟩
  return Join.events left right

end ScoreSource

/-- What requests are answered with. -/
structure Engine where
  /-- The usable definition of a score. -/
  lookup (scoreId : String) : Except DefinitionFault Definition
  source : ScoreSource
  settings : Settings

/-- What a score contributes to a report: its summary, or why there is none. -/
abbrev ScoreAnswer (α : Type) := String × Except EngineFault (Summary α)

namespace Engine

variable {α : Type}

/-- An engine with settings in range. -/
def create (lookup : String → Except DefinitionFault Definition) (source : ScoreSource)
    (settings : Settings) : Except EngineFault Engine :=
  match settings.validate with
  | .ok () => .ok ⟨lookup, source, settings⟩
  | .error fault => .error (.invalidSettings fault.message)

/-- What the statistics of a population are computed from: the definition of its score, which is
looked up first, and its stream. -/
def opened (engine : Engine) (population : Population) :
    Except EngineFault (Definition × List (Event ScoredRow)) :=
  match engine.lookup population.scoreId with
  | .error fault => .error (.definition fault)
  | .ok definition =>
    match engine.source.rows population with
    | .error cause => .error (.source cause)
    | .ok events => .ok (definition, events)

/-- The statistics of one population. -/
def population [Arithmetic α] (engine : Engine) (cancelled : Cancelled)
    (population : Population) : Except EngineFault (Summary α) × Cancelled :=
  match engine.lookup population.scoreId with
  | .error fault => (.error (.definition fault), cancelled)
  | .ok definition =>
    match engine.source.rows population with
    | .error cause => (.error (.source cause), cancelled)
    | .ok events => summarize definition engine.settings cancelled events

/-- The answers for the scores of a scope, computed one after another. -/
def answers [Arithmetic α] (engine : Engine) (evaluationId : String) (scope : Scope) :
    Cancelled → List String → List (ScoreAnswer α) × Cancelled
  | cancelled, [] => ([], cancelled)
  | cancelled, scoreId :: rest =>
    let (answer, cancelled) := engine.population cancelled ⟨evaluationId, scoreId, scope⟩
    let (later, cancelled) := answers engine evaluationId scope cancelled rest
    ((scoreId, answer) :: later, cancelled)

/-- Whether a score was lost because its worker broke down. -/
def isCrash : ScoreAnswer α → Bool
  | (_, .error (.workerCrashed _)) => true
  | _ => false

/-- Collects the answers of all scores in a report. A cancelled score leaves no report. -/
def collect (scope : Scope) : Report α → List (ScoreAnswer α) → Except EngineFault (Report α)
  | report, [] => .ok report.sort
  | report, (scoreId, .ok summary) :: rest =>
    collect scope (report.pushSummary scoreId scope summary).2 rest
  | _, (_, .error .cancelled) :: _ => .error .cancelled
  | report, (scoreId, .error fault) :: rest => collect scope (report.pushFailure scoreId fault) rest

/-- The report on the answers of all scores. A broken worker leaves no report, whatever the other
answers are. -/
def assemble (evaluationId : String) (scope : Scope) (answers : List (ScoreAnswer α)) :
    Except EngineFault (Report α) :=
  if answers.any isCrash then .error (.workerCrashed crashReason)
  else collect scope (Report.empty evaluationId scope) answers

/-- The statistics of every score in a scope. Without scores the report is empty. -/
def statistics [Arithmetic α] (engine : Engine) (cancelled : Cancelled) (evaluationId : String)
    (scope : Scope) : Except EngineFault (Report α) × Cancelled :=
  match engine.source.scoreIds evaluationId scope with
  | .error cause => (.error (.source cause), cancelled)
  | .ok scoreIds =>
    let (answers, cancelled) := engine.answers evaluationId scope cancelled scoreIds
    (assemble evaluationId scope answers, cancelled)

/-- The comparison of two experiments on one score. -/
def comparison [Arithmetic α] [TailTable α] (engine : Engine) (cancelled : Cancelled)
    (evaluationId experimentA experimentB scoreId : String) :
    Except EngineFault (Comparison α) × Cancelled :=
  match engine.lookup scoreId with
  | .error fault => (.error (.definition fault), cancelled)
  | .ok definition =>
    match engine.source.pairedRows evaluationId scoreId experimentA experimentB with
    | .error cause => (.error (.source cause), cancelled)
    | .ok events =>
      compareExperiments definition experimentA experimentB engine.settings cancelled events

end Engine

end Scorebook
