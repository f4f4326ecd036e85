import Scorebook.Score.RawValue

/-!
# Stored score records

A record is one result of scoring one row, in whatever state the scoring is. Only a finished
record that holds a value is a score.
-/

namespace Scorebook

/-- Which rows a population covers. -/
inductive Scope where
  /-- Scores attached to the rows of the dataset. -/
  | dataset
  /-- Scores attached to the results of one experiment. -/
  | experiment (id : String)
  deriving Repr, DecidableEq

namespace Scope

/-- A scope as it is named in reports. -/
def text : Scope → String
  | dataset => "dataset"
  | experiment id => "experiment:" ++ id

/-- The experiment of a scope, if it is one. -/
def experimentId? : Scope → Option String
  | dataset => none
  | experiment id => some id

/-- A scope is known by its experiment. -/
theorem experimentId?_inj {a b : Scope} (h : a.experimentId? = b.experimentId?) : a = b := by
  cases a <;> cases b <;> simp_all [experimentId?]

end Scope

/-- The state of a stored result. -/
inductive RecordStatus where
  | pending
  | running
  | done
  | failed
  /-- A state that this library does not know. -/
  | unknown
  deriving Repr, DecidableEq

namespace RecordStatus

/-- The name by which a state is exchanged. -/
def name : RecordStatus → String
  | pending => "PENDING"
  | running => "RUNNING"
  | done => "DONE"
  | failed => "FAILED"
  | unknown => "UNKNOWN"

/-- The state of that name; a name that is not known is the unknown state. -/
def ofName (text : String) : RecordStatus :=
  ([pending, running, done, failed].find? (·.name = text)).getD unknown

end RecordStatus

/-- One stored result. -/
structure Record where
  evaluationId : String
  scoreId : String
  experimentId : Option String
  rowKey : Nat
  status : RecordStatus
  value : Option RawValue
  deriving Repr

/-- The scope of a record: its experiment, or the dataset when it names none. -/
def Record.scope (record : Record) : Scope :=
  match record.experimentId with
  | some id => .experiment id
  | none => .dataset

/-- A record is of a scope if it names the experiment of the scope, or none for the dataset. -/
theorem Record.scope_eq_iff {record : Record} {scope : Scope} :
    record.scope = scope ↔ record.experimentId = scope.experimentId? := by
  rw [Record.scope]
  cases record.experimentId <;> cases scope <;> simp [Scope.experimentId?]

end Scorebook
