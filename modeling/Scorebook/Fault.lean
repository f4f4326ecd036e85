import Scorebook.Score.Definition
import Scorebook.Text.Quoted

/-!
# What can go wrong

Faults are grouped by what they end. A definition fault ends the computation for one score, a
source fault ends the reading of one stream, and an engine fault ends a request. A value that
cannot be read is no fault: its row is counted as excluded.
-/

namespace Scorebook

/-- Why a score has no usable definition. -/
inductive DefinitionFault where
  | notFound (scoreId : String)
  | scaleMissing (scoreId typeName : String)
  | duplicateLabel (scoreId label : String)
  | duplicateRank (scoreId : String) (rank : Int)
  /-- The definition itself could not be read. -/
  | unreadable (scoreId reason : String)
  deriving Repr, DecidableEq

/-- Why a stream of scored rows ended early. -/
inductive SourceFault where
  | io (reason : String)
  /-- A stored record that is no record, with its line counted from one. -/
  | malformed (line : Nat) (reason : String)
  | unavailable (reason : String)
  /-- A row key that does not exceed the one before it. -/
  | outOfOrder (previous next : Nat)
  deriving Repr, DecidableEq

/-- Why a request has no answer. -/
inductive EngineFault where
  | definition (fault : DefinitionFault)
  | source (fault : SourceFault)
  | cancelled
  | invalidSettings (reason : String)
  /-- A worker broke down while it computed a score. -/
  | workerCrashed (reason : String)
  deriving Repr, DecidableEq

/-- The text of a definition fault. -/
def DefinitionFault.message : DefinitionFault → String
  | notFound scoreId => "Score not found: " ++ scoreId
  | scaleMissing scoreId typeName =>
    "Score " ++ scoreId ++ " is " ++ typeName ++ " but declares no scale"
  | duplicateLabel scoreId label =>
    "Score " ++ scoreId ++ " declares label " ++ quoted label ++ " more than once"
  | duplicateRank scoreId rank =>
    "Ordinal score " ++ scoreId ++ " declares rank " ++ toString rank ++ " more than once"
  | unreadable scoreId reason =>
    "Score " ++ scoreId ++ " has an unreadable definition: " ++ reason

/-- The text of a source fault. -/
def SourceFault.message : SourceFault → String
  | io reason => "IO error: " ++ reason
  | malformed line reason =>
    "Malformed score record at line " ++ toString line ++ ": " ++ reason
  | unavailable reason => "Score source unavailable: " ++ reason
  | outOfOrder previous next =>
    "Stream not in ascending row-key order: " ++ toString next ++ " after " ++ toString previous

namespace EngineFault

/-- The text of an engine fault. -/
def message : EngineFault → String
  | definition fault => fault.message
  | source fault => fault.message
  | cancelled => "Computation cancelled before the stream was exhausted"
  | invalidSettings reason => "Invalid engine configuration: " ++ reason
  | workerCrashed reason => "Statistics worker panicked: " ++ reason

/-- Whether the same request may succeed when it is made again. Only failures to read a stream
qualify. -/
def retryable : EngineFault → Bool
  | source (.io _) | source (.unavailable _) => true
  | _ => false

end EngineFault

end Scorebook
