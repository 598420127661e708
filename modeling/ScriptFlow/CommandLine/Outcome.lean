import ScriptFlow.CommandLine.Options
import ScriptFlow.CommandLine.Summary
import ScriptFlow.Decoding
import ScriptFlow.Graph.Writer
import ScriptFlow.Settings.File

/-!
The command line as a function of its arguments, the machine it runs on and whether colours are on.
Settings are loaded before the package, and the first failure ends the work.
-/

namespace ScriptFlow.CommandLine

/-- What a run prints and the status it ends with. -/
structure Outcome where
  /-- The exit status. -/
  status : Nat := 0
  /-- The text on standard output. -/
  output : String := ""
  /-- The text on standard error. -/
  errors : String := ""
  deriving DecidableEq

/-- The version of the program. -/
def version : String := "0.1.0"

/-- The lines of the help. -/
def usage : List String :=
  ["kgraph " ++ version ++ " - Kismet bytecode graph decoder",
    "",
    "Usage: kgraph <package.json> [options]",
    "",
    "Options:",
    "  --function NAME     Function to decode (default: first in package)",
    "  --config FILE       Load settings from a TOML file",
    "  --mode MODE         Node presentation: default | pseudo",
    "  --fold-tracepoints  Skip tracepoint instructions",
    "  --fold-jumps        Connect callers of unconditional jumps to the target",
    "  --layout            Run Graphviz and attach node positions",
    "  --disassemble       Print a bytecode listing instead of the graph",
    "  --dot               Print the graph as Graphviz DOT",
    "  --json              Print the graph as JSON",
    "  --log LEVEL         Log filter (default: warn, or RUST_LOG)",
    "  --help, -h          Show this help message",
    "",
    "Examples:",
    "  kgraph actor.json                               Summarize the first function",
    "  kgraph actor.json --function ExecuteUbergraph_A --mode pseudo",
    "  kgraph actor.json --dot | dot -Tsvg > graph.svg"]

/-- The text of the help. -/
def usageText : String := String.join (usage.map (· ++ "\n"))

/-- Why work failed. -/
inductive Failure where
  /-- The settings file cannot be read. -/
  | settingsUnreadable (path : String) (fault : FileFault)
  /-- The settings file holds no settings. -/
  | settingsInvalid
  /-- The package file cannot be read. -/
  | packageUnreadable (path : String) (fault : FileFault)
  /-- The package file holds no package. -/
  | packageInvalid
  /-- The function has no listing. -/
  | noListing (error : DecodingError)
  /-- The function has no graph. -/
  | noGraph (error : DecodingError)
  deriving DecidableEq

/-- The message for work that failed. -/
def Failure.message : Failure → String
  | .settingsUnreadable path fault => "Failed to read config '" ++ path ++ "': " ++ fault.message
  | .settingsInvalid => "Invalid config"
  | .packageUnreadable path fault => "Failed to read package '" ++ path ++ "': " ++ fault.message
  | .packageInvalid => "Invalid package JSON"
  | .noListing error => error.detail
  | .noGraph error => error.message

/-- The settings from a file, or the defaults when none is named. -/
def loadSettings (machine : Machine) : Option String → Except Failure Settings
  | none => .ok {}
  | some path =>
    match machine.read path with
    | .error fault => .error (.settingsUnreadable path fault)
    | .ok text =>
      match Settings.read? text with
      | some settings => .ok settings
      | none => .error .settingsInvalid

/-- The package from a file. -/
def loadPackage (machine : Machine) (path : String) : Except Failure Package :=
  match machine.read path with
  | .error fault => .error (.packageUnreadable path fault)
  | .ok text =>
    match Package.read? text with
    | some package => .ok package
    | none => .error .packageInvalid

/-- A graph as a view shows it. -/
def graphText (colors : Bool) (view : View) (g : Graph) : String :=
  match view with
  | .dot => g.dot
  | .json => g.toJson.pretty ++ "\n"
  | _ => summary colors g

/-- What is printed of a function, or why nothing is. -/
def shownFunction (machine : Machine) (colors : Bool) (package : String) (options : Options) :
    Except Failure String := do
  let settings ← loadSettings machine options.config
  let package ← loadPackage machine package
  match options.view with
  | .listing =>
    match package.listing options.function with
    | .ok text => .ok text
    | .error error => .error (.noListing error)
  | view =>
    let settings := options.override settings
    match package.graph options.function settings (settings.layout.engineOn machine) with
    | .ok g => .ok (graphText colors view g)
    | .error error => .error (.noGraph error)

/-- The outcome of the given arguments. -/
def outcome (machine : Machine) (colors : Bool) (arguments : List String) : Outcome :=
  match requestOf arguments with
  | .help => { errors := usageText }
  | .version => { output := "kgraph " ++ version ++ "\n" }
  | .refused refusal => { status := 64, errors := refusal.message ++ "\n" ++ usageText }
  | .work package options =>
    match shownFunction machine colors package options with
    | .ok output => { output }
    | .error failure => { status := 1, errors := "Error: " ++ failure.message ++ "\n" }

end ScriptFlow.CommandLine
