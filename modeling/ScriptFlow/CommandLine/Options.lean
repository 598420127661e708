import ScriptFlow.Settings.Basic

/-!
The options of the command line. Arguments are taken from the left; the first one that asks for
help or the version, or that cannot be taken, decides.
-/

namespace ScriptFlow.CommandLine

/-- What is printed of a function. -/
inductive View where
  /-- A summary of its graph. -/
  | summary
  /-- A listing of its instructions. -/
  | listing
  /-- Its graph in DOT. -/
  | dot
  /-- Its graph in JSON. -/
  | json
  deriving DecidableEq

/-- What the arguments ask for. -/
structure Options where
  /-- The function; the first one if none is named. -/
  function : Option String := none
  /-- The settings file, if there is one. -/
  config : Option String := none
  /-- The mode, if it is not left to the settings. -/
  mode : Option GraphMode := none
  /-- Whether tracepoints are folded, whatever the settings say. -/
  foldTracepoints : Bool := false
  /-- Whether jumps are folded, whatever the settings say. -/
  foldJumps : Bool := false
  /-- Whether the graph is laid out, whatever the settings say. -/
  layout : Bool := false
  /-- What is printed. -/
  view : View := .summary

/-- Why arguments are no options. -/
inductive Refusal where
  /-- An option lacks its value. -/
  | valueMissing (option : String)
  /-- No mode has the name. -/
  | unknownMode (name : String)
  /-- The option is none. -/
  | unknownOption (option : String)
  /-- There is a second package file. -/
  | unexpected (argument : String)
  /-- There is no package file. -/
  | packageMissing
  deriving DecidableEq

/-- The message for arguments that are no options. -/
def Refusal.message : Refusal → String
  | .valueMissing option => option ++ " requires a value"
  | .unknownMode name => GraphMode.unknownMessage name
  | .unknownOption option => "Unknown option: " ++ option
  | .unexpected argument => "Unexpected argument: " ++ argument
  | .packageMissing => "Missing package file"

/-- What the arguments amount to. -/
inductive Request where
  /-- To show the help. -/
  | help
  /-- To show the version. -/
  | version
  /-- To go to work on a package file. -/
  | work (package : String) (options : Options)
  /-- Nothing that can be done. -/
  | refused (refusal : Refusal)

/-- An option that stands alone. -/
def flag? (options : Options) (argument : String) : Option Options :=
  match argument with
  | "--fold-tracepoints" => some { options with foldTracepoints := true }
  | "--fold-jumps" => some { options with foldJumps := true }
  | "--layout" => some { options with layout := true }
  | "--disassemble" => some { options with view := .listing }
  | "--dot" => some { options with view := .dot }
  | "--json" => some { options with view := .json }
  | _ => none

/-- The options that take a value. -/
def valueOptions : List String := ["--function", "--config", "--mode", "--log"]

/-- An option with its value; the log level changes nothing that is printed. -/
def withValue (options : Options) (option value : String) : Except Refusal Options :=
  match option with
  | "--function" => .ok { options with function := some value }
  | "--config" => .ok { options with config := some value }
  | "--mode" =>
    match GraphMode.ofName? value with
    | some mode => .ok { options with mode := some mode }
    | none => .error (.unknownMode value)
  | _ => .ok options

/-- What the remaining arguments amount to, given the package file and the options so far. -/
def requestFrom (package : Option String) (options : Options) : List String → Request
  | [] =>
    match package with
    | some package => .work package options
    | none => .refused .packageMissing
  | argument :: rest =>
    if argument = "--help" ∨ argument = "-h" then .help
    else if argument = "--version" ∨ argument = "-V" then .version
    else if argument ∈ valueOptions then
      match rest with
      | [] => .refused (.valueMissing argument)
      | value :: rest =>
        match withValue options argument value with
        | .ok options => requestFrom package options rest
        | .error refusal => .refused refusal
    else
      match flag? options argument with
      | some options => requestFrom package options rest
      | none =>
        if startsWithText "-" argument then .refused (.unknownOption argument)
        else if package.isSome then .refused (.unexpected argument)
        else requestFrom (some argument) options rest

/-- What arguments amount to. -/
def requestOf (arguments : List String) : Request := requestFrom none {} arguments

/-- Settings with the options of the command line taken into account. -/
def Options.override (options : Options) (settings : Settings) : Settings where
  decode := { settings.decode with
    mode := options.mode.getD settings.decode.mode
    foldTracepoints := settings.decode.foldTracepoints || options.foldTracepoints
    foldJumps := settings.decode.foldJumps || options.foldJumps }
  layout := { settings.layout with enabled := settings.layout.enabled || options.layout }

end ScriptFlow.CommandLine
