import ScriptFlow.Expr.Listing
import ScriptFlow.Graph.Dot
import ScriptFlow.Graph.Job
import ScriptFlow.Graph.Placement
import ScriptFlow.Layout.Engine
import ScriptFlow.Package

/-!
From a package to the graph of one of its functions: the function is selected, decoded among the
other functions of the package, and laid out if the settings ask for it. A layout that fails leaves
the graph without positions.
-/

namespace ScriptFlow

/-- Why a function has no graph or no listing. -/
inductive DecodingError where
  /-- No function is selected. -/
  | package (error : PackageError)
  /-- The function holds an unknown token. -/
  | decode (gap : ModelGap)
  deriving DecidableEq

/-- What went wrong, in words. -/
def DecodingError.detail : DecodingError → String
  | .package error => error.message
  | .decode gap => gap.message

/-- What went wrong, with the kind of the error in front. -/
def DecodingError.message : DecodingError → String
  | .package error => "Package error: " ++ error.message
  | .decode gap => "Decode error: " ++ gap.message

/-- The decoding of a function among all functions of a package. -/
def Package.job (package : Package) (settings : DecodeSettings) (function : ScriptFunction) :
    Job where
  settings := settings
  stream := (function.resolved package.symbols.symbols).2
  entry := some function.name
  functions := some (package.functions.map (·.resolved package.symbols.symbols))
  isDispatch := startsWithText settings.dispatchStart

/-- The graph of a function of a package, by name or the first one. -/
def Package.decode (package : Package) (name : Option String) (settings : DecodeSettings) :
    Except DecodingError Graph :=
  match package.select name with
  | .error error => .error (.package error)
  | .ok function =>
    match (package.job settings function).graph with
    | .error gap => .error (.decode gap)
    | .ok graph => .ok graph

/-- The graph laid out by an engine's answer to its DOT text, and the number of lines that placed a
node. -/
def Graph.layOut (g : Graph) (layout : LayoutSettings) (engine : Engine) :
    Except LayoutError (Graph × Nat) :=
  (engine g.dot).map (g.placeAll layout)

/-- The graph of a function of a package, laid out if the settings ask for it and it can be. -/
def Package.graph (package : Package) (name : Option String) (settings : Settings)
    (engine : Engine) : Except DecodingError Graph :=
  (package.decode name settings.decode).map fun graph =>
    if settings.layout.enabled then
      match graph.layOut settings.layout engine with
      | .ok (placed, _) => placed
      | .error _ => graph
    else graph

/-- The listing of a function of a package. -/
def Package.listing (package : Package) (name : Option String) : Except DecodingError String :=
  match package.select name with
  | .error error => .error (.package error)
  | .ok function =>
    match ScriptFlow.listing (function.resolved package.symbols.symbols).2 with
    | .error gap => .error (.decode gap)
    | .ok text => .ok text

end ScriptFlow
