import ScriptFlow.CommandLine.Outcome

/-!
The command line as a program: the files that the arguments name are read, the outcome is printed.
No layout program is started, so layouts are skipped.
-/

namespace ScriptFlow.CommandLine

/-- The files that a request names. -/
def namedFiles : Request → List String
  | .work package options => options.config.toList ++ [package]
  | _ => []

/-- The text of the file under a name, or why there is none. -/
def readEntry (name : String) : IO (String × Except FileFault String) := do
  try
    return (name, .ok (← IO.FS.readFile name))
  catch error =>
    let fault : FileFault := match error with
      | .noFileOrDirectory .. => .missing
      | .permissionDenied .. => .denied
      | .inappropriateType .. => .isDirectory
      | _ => .notText
    return (name, .error fault)

/-- The machine that has the files that were read, and no layout program. -/
def machineWith (files : List (String × Except FileFault String)) : Machine where
  read path := ((files.find? (·.1 = path)).map (·.2)).getD (.error .missing)
  launch _ _ := .refused .missing

/-- Whether output is coloured: if the environment forces it, or on a terminal unless the
environment forbids it. -/
def wantsColors : IO Bool := do
  match ← IO.getEnv "CLICOLOR_FORCE" with
  | some "0" | none =>
    if (← IO.getEnv "NO_COLOR").isSome || (← IO.getEnv "CLICOLOR") == some "0" then return false
    else (← IO.getStdout).isTty
  | some _ => return true

end ScriptFlow.CommandLine

open ScriptFlow ScriptFlow.CommandLine in
/-- Runs the command line. -/
def main (arguments : List String) : IO UInt32 := do
  let files ← (namedFiles (requestOf arguments)).mapM readEntry
  let outcome := outcome (machineWith files) (← wantsColors) arguments
  IO.print outcome.output
  IO.eprint outcome.errors
  return outcome.status.toUInt32
