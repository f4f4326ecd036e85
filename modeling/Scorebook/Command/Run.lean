import Scorebook.Command.Arguments
import Scorebook.Command.Files
import Scorebook.Engine
import Scorebook.Json.Printer
import Scorebook.Report.Format
import Scorebook.Report.Text
import Scorebook.Settings.Format
import Scorebook.Store.Lines
import Scorebook.Tail.Double

/-!
# Running a command

A command reads its settings, the definitions and the scores, in this order, and then asks the
engine. The first failure ends it. A report with failed scores is printed, and the command fails
afterwards.
-/

namespace Scorebook

namespace Command

/-- What a command leaves behind. -/
structure Outcome where
  exitCode : Nat
  output : String
  errors : String
  deriving Repr, DecidableEq

/-- Why a command fails: what it could not do, and the chain of causes. -/
structure Failure where
  headline : String
  causes : List String
  deriving Repr, DecidableEq

namespace Failure

/-- A text whose lines after the first are indented. -/
def hanging (indent : String) (text : String) : String :=
  String.ofList (text.toList.flatMap fun c => if c = '\n' then c :: indent.toList else [c])

/-- The lines of the causes. Several causes are numbered from zero. -/
def causeLines : List String → List String
  | [] => []
  | [cause] => ["    " ++ hanging "    " cause]
  | causes => causes.zipIdx.map fun (cause, index) =>
    "    " ++ toString index ++ ": " ++ hanging "       " cause

/-- The text of a failure. -/
def message (failure : Failure) : String :=
  let causes :=
    if failure.causes.isEmpty then [] else "" :: "Caused by:" :: causeLines failure.causes
  "Error: " ++ "\n".intercalate (failure.headline :: causes) ++ "\n"

end Failure

/-- The text of a file of a command. -/
def readText (files : Files) (path : String) : Except Failure String :=
  (files.text path).mapError fun fault => ⟨"Failed to read " ++ path, [fault.message]⟩

/-- The settings of a command: those of its configuration file, or the standard ones. -/
def readSettings (files : Files) : Option String → Except Failure Settings
  | none => .ok .standard
  | some path => do
    let text ← readText files path
    match Settings.ofText? text with
    | none => .error ⟨"Failed to parse TOML", ["no settings file"]⟩
    | some settings =>
      match settings.validate with
      | .ok () => .ok settings
      | .error fault => .error ⟨fault.message, []⟩

/-- The definitions of a command. -/
def readRegistry (files : Files) (path : String) : Except Failure Registry := do
  let text ← readText files path
  match Registry.ofText? text with
  | some registry => .ok registry
  | none => .error ⟨"Failed to parse score metadata in " ++ path, ["no list of definitions"]⟩

/-- The causes behind a source fault: its own text, and what the operating system said. -/
def sourceCauses (fault : SourceFault) : List String :=
  match fault with
  | .io reason => [fault.message, reason]
  | _ => [fault.message]

/-- The scores of a command. -/
def readStore (files : Files) (path : String) : Except Failure Store :=
  let store := match files path with
    | .ok bytes => Store.ofBytes bytes
    | .error fault => .error (.io fault.message)
  store.mapError fun fault => ⟨"Failed to load scores from " ++ path, sourceCauses fault⟩

/-- The engine of a command. -/
def openEngine (files : Files) (order : Order) : Except Failure Engine := do
  let settings ← readSettings files order.config
  let registry ← readRegistry files order.inputs.metadata
  let store ← readStore files order.inputs.scores
  (Engine.create registry.lookup (.ofStore store) settings).mapError fun fault =>
    ⟨fault.message, []⟩

/-- Text or interchange form, as an order asks for. -/
def print (format : OutputFormat) (text : String) (value : Json) : String :=
  match format with
  | .text => text
  | .json => value.pretty ++ "\n"

/-- Computes what an order asks for: what is printed, and the failure that follows it if there
is one. -/
def answer (files : Files) (order : Order) : Except Failure (String × Option Failure) := do
  let engine ← openEngine files order
  match order.task with
  | .stats experiment =>
    let scope := (experiment.map Scope.experiment).getD .dataset
    let (result, _) := engine.statistics (α := Float) false order.inputs.evaluationId scope
    let report ← result.mapError fun fault => ⟨fault.message, []⟩
    let failure : Option Failure :=
      if report.isComplete then none
      else some ⟨"Statistics failed for " ++ toString report.failures.length ++ " score(s)", []⟩
    return (print order.inputs.format report.toText report.toJson, failure)
  | .compare experimentA experimentB scoreId =>
    let (result, _) := engine.comparison (α := Float) false order.inputs.evaluationId experimentA
      experimentB scoreId
    let comparison ← result.mapError fun fault =>
      ⟨"Failed to compare " ++ experimentA ++ " vs " ++ experimentB ++ " on " ++ scoreId,
        [fault.message]⟩
    return (print order.inputs.format comparison.toText comparison.toJson, none)

/-- How the program is called. -/
def usage : String :=
  "Usage: evalstat [--debug] [--config FILE] stats INPUTS [--experiment ID]\n"
    ++ "       evalstat [--debug] [--config FILE] compare INPUTS --experiment-a ID\n"
    ++ "         --experiment-b ID --score ID\n"
    ++ "Inputs: --scores FILE --metadata FILE --evaluation ID [--format text|json]\n"

/-- Runs a command line. -/
def run (files : Files) (words : List String) : Outcome :=
  match readOrder words with
  | .error .help => ⟨0, usage, ""⟩
  | .error .version => ⟨0, "evalstat 0.1.0\n", ""⟩
  | .error .refused => ⟨2, "", usage⟩
  | .ok order =>
    match answer files order with
    | .ok (output, none) => ⟨0, output, ""⟩
    | .ok (output, some failure) => ⟨1, output, failure.message⟩
    | .error failure => ⟨1, "", failure.message⟩

end Command

end Scorebook
