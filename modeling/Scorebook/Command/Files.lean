/-!
# The files of a command

A command reads its files by name. Reading may fail, and the reason is part of what the command
prints.
-/

namespace Scorebook

namespace Command

/-- Why a file cannot be read. -/
inductive FileFault where
  | missing
  | permission
  | notDirectory
  | isDirectory
  /-- Its bytes are no text. -/
  | notText
  | other (reason : String)
  deriving Repr, DecidableEq

/-- The text of a file fault, in the words and with the number of the operating system. -/
def FileFault.message : FileFault → String
  | missing => "No such file or directory (os error 2)"
  | permission => "Permission denied (os error 13)"
  | notDirectory => "Not a directory (os error 20)"
  | isDirectory => "Is a directory (os error 21)"
  | notText => "stream did not contain valid UTF-8"
  | other reason => reason

/-- How a command gets at the bytes of a file. -/
abbrev Files := String → Except FileFault ByteArray

/-- The text of a file. -/
def Files.text (files : Files) (name : String) : Except FileFault String := do
  match String.fromUTF8? (← files name) with
  | some text => return text
  | none => .error .notText

/-- The parts of a path between its slashes. -/
def pathParts (path : List Char) : List (List Char) :=
  path.foldr (fun c parts =>
    if c = '/' then [] :: parts
    else match parts with
      | part :: rest => (c :: part) :: rest
      | [] => [[c]]) [[]]

/-- The files of a directory without subdirectories. A path may begin with points for the
directory itself, and there is nothing below a file. -/
def Files.ofDirectory (contents : List (String × String)) : Files := fun path =>
  match (pathParts path.toList).dropWhile (· = ['.']) with
  | [] => .error .isDirectory
  | name :: below =>
    match contents.find? (·.1 = String.ofList name) with
    | some (_, content) => if below.isEmpty then .ok content.toUTF8 else .error .notDirectory
    | none => .error .missing

end Command

end Scorebook
