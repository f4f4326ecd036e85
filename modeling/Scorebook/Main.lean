import Scorebook.Command.Run

/-!
# The program

The program reads the files that its command line names, runs the command on them, and prints
what the command leaves behind.
-/

namespace Scorebook

/-- Reads a file, and tells why it cannot be read. -/
def readFile (path : String) : IO (Except Command.FileFault ByteArray) := do
  try return .ok (← IO.FS.readBinFile path)
  catch
    | .noFileOrDirectory .. => return .error .missing
    | .permissionDenied .. => return .error .permission
    | .inappropriateType .. => return .error .isDirectory
    | fault => return .error (.other (toString fault))

/-- The paths of the files that an order names. -/
def Command.Order.paths (order : Command.Order) : List String :=
  order.config.toList ++ [order.inputs.metadata, order.inputs.scores]

/-- Reads the files that a command line names. -/
def readFiles (words : List String) : IO Command.Files := do
  let paths := match Command.readOrder words with
    | .ok order => order.paths
    | .error _ => []
  let contents ← paths.mapM fun path => return (path, ← readFile path)
  return fun path => ((contents.find? (·.1 = path)).map (·.2)).getD (.error .missing)

end Scorebook

/-- Runs the program on its command line. -/
def main (words : List String) : IO UInt32 := do
  let outcome := Scorebook.Command.run (← Scorebook.readFiles words) words
  IO.print outcome.output
  IO.eprint outcome.errors
  return outcome.exitCode.toUInt32
