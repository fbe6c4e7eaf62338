/-
# BorderSync.Main -- the command

Reads variables and files, asks `CommandLine.start` how the start ends, and prints that.
-/
import BorderSync.CommandLine.Start

namespace BorderSync

/-- The variables that the command looks at, as far as they are set. -/
def environmentNow : IO CommandLine.Environment :=
  (CommandLine.filterVariable :: CommandLine.options.map (·.envName)).filterMapM fun name => do
    return (← IO.getEnv name).map fun value => (name, value)

/-- The fault behind a failure to read a file. -/
def faultOf : IO.Error → OsFault
  | .permissionDenied .. => .permissionDenied
  | .inappropriateType _ code _ => if code = 20 then .notADirectory else .isADirectory
  | _ => .noSuchFile

/-- The content of a file. -/
def contentOf (path : String) : IO (Except OsFault (List UInt8)) := do
  try
    return .ok (← IO.FS.readBinFile path).toList
  catch e =>
    return .error (faultOf e)

/-- Run the command. -/
def run (args : List String) : IO UInt32 := do
  let env ← environmentNow
  let files ← (CommandLine.paths env args).mapM fun path => return (path, ← contentOf path)
  let read := fun path => (files.lookup path).getD (.error .noSuchFile)
  let ending := CommandLine.start .standard read env args
  for line in ending.output do
    IO.println line
  if ending.complaint != "" then
    IO.eprintln ending.complaint
  return UInt32.ofNat ending.code

end BorderSync

def main (args : List String) : IO UInt32 :=
  BorderSync.run args
