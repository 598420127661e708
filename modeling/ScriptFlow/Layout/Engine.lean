import ScriptFlow.Layout.Duration
import ScriptFlow.Machine
import ScriptFlow.Settings.Basic
import ScriptFlow.Text.Shown

/-!
Layout engines: programs that turn the DOT text of a graph into a report of coordinates. The paths
in the settings are tried in order, and the first program that starts is the one whose report
counts, whatever becomes of it; it has to finish in time, write text and end with status zero.
-/

namespace ScriptFlow

/-- Why there is no layout. What goes wrong on this side of the pipes, such as a pipe or a thread
that cannot be made, is left out. -/
inductive LayoutError where
  /-- No path leads to a program. -/
  | notFound (paths : List String)
  /-- The last of the programs that are there could not be started. -/
  | notStarted (path : String) (fault : FileFault)
  /-- The program took too long. -/
  | timeout (milliseconds : Nat)
  /-- The program ended with a status other than zero. -/
  | failed (status : Int)
  /-- The program ended before it had read its input. -/
  | notRead
  /-- The program wrote what is no text. -/
  | notText
  deriving DecidableEq

/-- The message for a layout that failed. -/
def LayoutError.message : LayoutError → String
  | .notFound paths => "Layout engine not found (tried " ++ shownList paths ++ ")"
  | .notStarted path fault => "Failed to start layout engine '" ++ path ++ "': " ++ fault.message
  | .timeout milliseconds =>
    "Layout engine did not finish within " ++ durationText milliseconds
  | .failed status => "Layout engine exited with status " ++ intText status
  | .notRead => "Layout engine I/O error: Broken pipe (os error 32)"
  | .notText => "Layout engine I/O error: stream did not contain valid UTF-8"

/-- A layout engine: what it answers to a DOT text. -/
abbrev Engine : Type := String → Except LayoutError String

/-- The arguments that a layout program gets. -/
def engineArguments : List String := ["-Tplain", "-y"]

/-- The first program that starts; `last` is the error for the latest one that was there and did
not. -/
def firstLaunch (launch : String → Launch) (last : Option LayoutError) (tried : List String) :
    List String → Except LayoutError Run
  | [] => .error (last.getD (.notFound tried))
  | path :: rest =>
    match launch path with
    | .started run => .ok run
    | .refused .missing => firstLaunch launch last tried rest
    | .refused fault => firstLaunch launch (some (.notStarted path fault)) tried rest

/-- The status that a run is said to have ended with; a signal leaves none. -/
def Ending.status : Ending → Int
  | .exited status => status
  | .killed => -1

/-- The report of a run. Its input and output have to be done within the given time, and the output
has to be text. Only then the end of the program is waited for, however long it takes. -/
def reportOf (milliseconds : Nat) (run : Run) : Except LayoutError String :=
  match run.exchange milliseconds with
  | .pending => .error (.timeout milliseconds)
  | .broken => .error .notRead
  | .finished output =>
    match String.fromUTF8? output with
    | none => .error .notText
    | some report =>
      if run.ending = .exited 0 then .ok report else .error (.failed run.ending.status)

/-- The report of the first of the programs that starts. -/
def runEngine (launch : String → Launch) (paths : List String) (milliseconds : Nat) :
    Except LayoutError String :=
  match firstLaunch launch none paths paths with
  | .ok run => reportOf milliseconds run
  | .error error => .error error

/-- The engine that the layout settings name, on a machine. -/
def LayoutSettings.engineOn (layout : LayoutSettings) (machine : Machine) : Engine := fun dot =>
  runEngine (machine.launch dot) layout.enginePaths layout.timeoutMs

end ScriptFlow
