import CStruct.Command

/-!
# The program

Reads the file that the command line names, and writes what the command makes of it.
-/

namespace CStruct.Command

/-- Reads the source at a path. A directory is told by its error code. -/
def readSource (path : String) : IO (Except ReadFailure String) := do
  try
    return .ok (← IO.FS.readFile path)
  catch
    | .inappropriateType _ 21 _ => return .error .directory
    | .userError _ => return .error .notText
    | _ => return .error .missing

end CStruct.Command

open CStruct

def main (args : List String) : IO UInt32 := do
  let path? := (Command.readArguments {} args).bind (·.path?)
  let source ← match path? with
    | some path => Command.readSource path
    | none => pure (.error .missing)
  match Command.run (fun _ => source) args with
  | .usage =>
    (← IO.getStderr).putStr Command.usageText
    return 2
  | .finished code output errors =>
    (← IO.getStderr).putStr errors
    (← IO.getStdout).putStr output
    return code.toUInt32
