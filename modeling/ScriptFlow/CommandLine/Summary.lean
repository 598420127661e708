import ScriptFlow.Graph.Basic

/-!
The summary of a graph: every node that execution passes through with the outputs that lead on, a
line of counts, and the warnings. On a terminal, titles and pins are coloured.
-/

namespace ScriptFlow.CommandLine

/-- How a piece of text stands out. -/
inductive Style where
  /-- Not at all. -/
  | normal
  | bold
  | yellow
  | cyan
  | boldYellow
  deriving DecidableEq

/-- The escape character of terminals. -/
def escapeChar : Char := Char.ofNat 27

/-- A terminal sequence with the given parameters. -/
def terminalCode (parameters : String) : String :=
  String.ofList [escapeChar, '['] ++ parameters ++ "m"

/-- The sequence that starts a style. -/
def Style.start : Style → String
  | .normal => ""
  | .bold => terminalCode "1"
  | .yellow => terminalCode "33"
  | .cyan => terminalCode "36"
  | .boldYellow => terminalCode "1;33"

/-- The sequence that ends every style. -/
def styleEnd : String := terminalCode "0"

/-- A text in a style, or as it is when colours are off. The style is taken up again wherever the
text itself ends one. -/
def styled (colors : Bool) (style : Style) (text : String) : String :=
  if colors && style ≠ .normal then
    style.start ++ (styleEnd ++ style.start).intercalate (text.splitOn styleEnd) ++ styleEnd
  else text

/-- The style of a node's title. -/
def titleStyle (node : Node) : Style :=
  if node.unmodeled then .yellow else if node.kind = .entry then .bold else .normal

/-- The line of an execution output that leads on. -/
def edgeLine (colors : Bool) (g : Graph) (edge : Edge) : String :=
  let target := match g.node? edge.target with
    | some node => node.label
    | none => "?"
  "    " ++ styled colors .cyan edge.sourcePin ++ " -> " ++ target ++ "\n"

/-- The lines of a node. -/
def nodeLines (colors : Bool) (g : Graph) (node : Node) : String :=
  styled colors (titleStyle node) node.label ++ "\n" ++
    String.join (((g.edgesFrom node.id).filter (·.kind = .execution)).map (edgeLine colors g))

/-- The line of counts. -/
def countLine (g : Graph) : String :=
  natText g.executionNodes.length ++ " execution node(s), " ++
    natText g.valueNodes.length ++ " value node(s), " ++
    natText (g.edgeCount .execution) ++ " execution edge(s), " ++
    natText (g.edgeCount .data) ++ " data edge(s)\n"

/-- The lines of the warnings, with their number; nothing if there is none. -/
def warningLines (colors : Bool) (g : Graph) : String :=
  let warnings := g.diagnostics.toList.filter (·.severity = .warning)
  if warnings.isEmpty then ""
  else
    "\n" ++
      String.join (warnings.map fun d =>
        styled colors .boldYellow "warning:" ++ " " ++ d.text ++ "\n") ++
      natText warnings.length ++ " warning(s)\n"

/-- The summary of a graph. -/
def summary (colors : Bool) (g : Graph) : String :=
  String.join (g.executionNodes.map (nodeLines colors g)) ++ "\n" ++ countLine g ++
    warningLines colors g

end ScriptFlow.CommandLine
