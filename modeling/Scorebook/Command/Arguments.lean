/-!
# The command line

A command line is read in two levels: the program's own options up to the name of a task, then
the options of the task. An option takes its value from behind an equals sign or from the next
word, and may be given once in a level. Reading goes from left to right and stops at the first
word that asks for help or for the version, or that is refused.
-/

namespace Scorebook

namespace Command

/-- The form in which results are printed. -/
inductive OutputFormat where
  | text
  | json
  deriving Repr, DecidableEq

/-- The format of that name. -/
def OutputFormat.ofName? (name : String) : Option OutputFormat :=
  if name = "text" then some .text else if name = "json" then some .json else none

/-- What every task reads, and how it prints. -/
structure Inputs where
  scores : String
  metadata : String
  evaluationId : String
  format : OutputFormat
  deriving Repr, DecidableEq

/-- What a task computes. -/
inductive Task where
  /-- The statistics of an experiment, or of the dataset when none is named. -/
  | stats (experiment : Option String)
  | compare (experimentA experimentB scoreId : String)
  deriving Repr, DecidableEq

/-- A complete order to the program. -/
structure Order where
  config : Option String
  inputs : Inputs
  task : Task
  deriving Repr, DecidableEq

/-- Why a command line is no order. -/
inductive Stop where
  | help
  | version
  | refused
  deriving Repr, DecidableEq

/-- The options that were given in a level, with their values. A flag has an empty value. -/
abbrev Given := List (String × String)

/-- The value of an option, if it was given. -/
def Given.value? (given : Given) (name : String) : Option String :=
  (given.find? (·.1 = name)).map (·.2)

/-- The value of an option that has to be given. -/
def Given.required (given : Given) (name : String) : Except Stop String :=
  match given.value? name with
  | some value => .ok value
  | none => .error .refused

/-- The words that a level knows. -/
structure Grammar where
  /-- The options with a value. -/
  options : List String
  /-- Whether the level answers for the version of the program. -/
  showsVersion : Bool

/-- Whether a value suits an option: a file needs a name, and a format is one of two. -/
def suits (name value : String) : Bool :=
  match name with
  | "config" | "scores" | "metadata" => !value.isEmpty
  | "format" => (OutputFormat.ofName? value).isSome
  | _ => true

/-- Takes in an option with its value. An option is given once, with a value that suits it. -/
def Given.accept (given : Given) (name value : String) : Except Stop Given :=
  if (given.value? name).isSome ∨ ¬suits name value then .error .refused
  else .ok ((name, value) :: given)

/-- How a word is written. -/
inductive Word where
  /-- Two dashes: only plain words may follow. -/
  | escape
  /-- A name behind two dashes, with the text behind its equals sign if there is one. -/
  | long (name : String) (value : Option String)
  /-- Letters behind one dash. -/
  | short (letters : List Char)
  | plain (text : String)
  deriving Repr, DecidableEq

/-- Tells how a word is written. A single dash is a plain word. -/
def Word.ofText (text : String) : Word :=
  match text.toList with
  | ['-', '-'] => .escape
  | '-' :: '-' :: rest =>
    let name := rest.takeWhile (· ≠ '=')
    let value := match rest.drop name.length with
      | _ :: value => some (String.ofList value)
      | [] => none
    .long (String.ofList name) value
  | '-' :: letter :: rest => .short (letter :: rest)
  | _ => .plain text

/-- Whether a word can be the value of the option before it. -/
def isValue (text : String) : Bool :=
  match Word.ofText text with
  | .plain _ => true
  | _ => false

/-- What follows when the first letter behind one dash is read. No letter takes a value. -/
def stopOfLetter (grammar : Grammar) : List Char → Stop
  | 'h' :: _ => .help
  | 'V' :: _ => if grammar.showsVersion then .version else .refused
  | _ => .refused

/-- Reads the options of a level, up to the first plain word, which is returned with the words
behind it. -/
def readLevel (grammar : Grammar) :
    Given → List String → Except Stop (Given × Option (String × List String))
  | given, [] => .ok (given, none)
  | given, word :: rest =>
    match Word.ofText word with
    | .escape => if rest.isEmpty then .ok (given, none) else .error .refused
    | .short letters => .error (stopOfLetter grammar letters)
    | .plain text => .ok (given, some (text, rest))
    | .long name (some value) =>
      if name ∈ grammar.options then do readLevel grammar (← given.accept name value) rest
      else .error .refused
    | .long name none =>
      if name ∈ grammar.options then
        match rest with
        | value :: rest =>
          if isValue value then do readLevel grammar (← given.accept name value) rest
          else .error .refused
        | [] => .error .refused
      else if name = "debug" then do readLevel grammar (← given.accept name "") rest
      else if name = "help" then .error .help
      else if name = "version" ∧ grammar.showsVersion then .error .version
      else .error .refused

/-- The options that every task has. -/
def inputOptions : List String := ["config", "scores", "metadata", "evaluation", "format"]

/-- Reads the options of a task. No plain word may stand among them. -/
def readTask (options : List String) (words : List String) : Except Stop Given := do
  match ← readLevel ⟨inputOptions ++ options, false⟩ [] words with
  | (given, none) => return given
  | _ => .error .refused

/-- The inputs that the options of a task name. Results are printed as text unless the options
say otherwise. -/
def Given.inputs (given : Given) : Except Stop Inputs := do
  return {
    scores := ← given.required "scores"
    metadata := ← given.required "metadata"
    evaluationId := ← given.required "evaluation"
    format := ((given.value? "format").bind OutputFormat.ofName?).getD .text }

/-- The configuration file: the one named behind the task, or else the one before it. -/
def configOf (before behind : Given) : Option String :=
  (behind.value? "config").or (before.value? "config")

/-- Reads a command line. -/
def readOrder (words : List String) : Except Stop Order := do
  match ← readLevel ⟨["config"], true⟩ [] words with
  | (before, some ("stats", rest)) =>
    let given ← readTask ["experiment"] rest
    return ⟨configOf before given, ← given.inputs, .stats (given.value? "experiment")⟩
  | (before, some ("compare", rest)) =>
    let given ← readTask ["experiment-a", "experiment-b", "score"] rest
    let task := .compare (← given.required "experiment-a") (← given.required "experiment-b")
      (← given.required "score")
    return ⟨configOf before given, ← given.inputs, task⟩
  | (_, some ("help", rest)) =>
    .error (if rest ∈ [[], ["stats"], ["compare"], ["help"]] then .help else .refused)
  | _ => .error .refused

end Command

end Scorebook
