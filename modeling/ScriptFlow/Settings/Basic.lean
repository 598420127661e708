import ScriptFlow.Number.Single

/-!
Settings: how a script is decoded into a graph and how the graph is laid out. Every setting has a
default.
-/

namespace ScriptFlow

/-- How context accesses are presented. -/
inductive GraphMode where
  /-- A context access is a node of its own. -/
  | plain
  /-- A context access is merged into the member it accesses. -/
  | pseudoBlueprint
  deriving DecidableEq

namespace GraphMode

/-- The name of a mode in a settings file. -/
def tag : GraphMode → String
  | .plain => "default"
  | .pseudoBlueprint => "pseudo_blueprint"

/-- Every mode. -/
def all : List GraphMode := [.plain, .pseudoBlueprint]

/-- The mode that an option names; one of the modes has a short name as well. -/
def ofName? (name : String) : Option GraphMode :=
  if name = "default" then some .plain
  else if name = "pseudo" ∨ name = "pseudo_blueprint" then some .pseudoBlueprint
  else none

/-- The message for a name that is no mode. -/
def unknownMessage (name : String) : String := "unknown graph mode: " ++ name

end GraphMode

/-- How a script is decoded. -/
structure DecodeSettings where
  /-- How context accesses are presented. -/
  mode : GraphMode := .plain
  /-- Whether tracepoints are passed over. -/
  foldTracepoints : Bool := false
  /-- Whether unconditional jumps are replaced by their targets. -/
  foldJumps : Bool := false
  /-- The functions that resume later, at an offset given in their third argument. -/
  latentFunctions : List String := ["Delay", "RetriggerableDelay"]
  /-- How the names of functions start that are entered from other functions. -/
  dispatchStart : String := "ExecuteUbergraph"
  deriving DecidableEq

/-- Whether a function resumes later. -/
def DecodeSettings.isLatent (settings : DecodeSettings) (function : String) : Bool :=
  function ∈ settings.latentFunctions

/-- Whether a name starts with the given characters. -/
def startsWithText (start name : String) : Bool := start.toList.isPrefixOf name.toList

/-- How a graph is laid out. -/
structure LayoutSettings where
  /-- Whether it is laid out at all. -/
  enabled : Bool := false
  /-- The layout programs, in the order in which they are tried. -/
  enginePaths : List String := ["bin/dot", "dot"]
  /-- How long a layout program may run, in milliseconds. -/
  timeoutMs : Nat := 10000
  /-- Factor of the horizontal coordinates. -/
  scaleX : Single := .ofInt 50
  /-- Factor of the vertical coordinates. -/
  scaleY : Single := .ofInt 60
  deriving DecidableEq

/-- All settings. -/
structure Settings where
  decode : DecodeSettings := {}
  layout : LayoutSettings := {}
  deriving DecidableEq

end ScriptFlow
