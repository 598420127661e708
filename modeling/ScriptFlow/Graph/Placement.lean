import ScriptFlow.Graph.Basic
import ScriptFlow.Number.Literal
import ScriptFlow.Settings.Basic
import ScriptFlow.Text.Blank

/-!
Placing nodes by a layout report. A report is a text of lines; the lines that say where a node is
start with the word `node`, its id and its two coordinates. Every other line, and every such line
with a part that cannot be read, is passed over.
-/

namespace ScriptFlow

/-- Where a report puts a node. -/
structure Placement where
  /-- The node. -/
  node : NodeId
  /-- Its horizontal coordinate. -/
  x : Single
  /-- Its vertical coordinate. -/
  y : Single
  deriving DecidableEq

namespace Placement

/-- A field without the quotes around it. -/
def unquote (field : List Char) : List Char :=
  ((field.dropWhile (· = '"')).reverse.dropWhile (· = '"')).reverse

/-- The placement that a line states. -/
def ofLine? (line : List Char) : Option Placement :=
  match fieldsOf line with
  | ['n', 'o', 'd', 'e'] :: id :: x :: y :: _ => do
    return ⟨← wordLiteral? (unquote id), ← singleLiteral? x, ← singleLiteral? y⟩
  | _ => none

/-- The placements that a report states, in order. -/
def ofReport (report : String) : List Placement := (linesOf report.toList).filterMap ofLine?

end Placement

/-- The graph with one node placed, coordinates scaled; nothing changes if there is no such
node. -/
def Graph.place (g : Graph) (layout : LayoutSettings) (p : Placement) : Graph :=
  g.modifyNode p.node fun node =>
    { node with position := some (p.x * layout.scaleX, p.y * layout.scaleY) }

/-- The graph with the nodes placed as a report says, later lines overriding earlier ones, and the
number of lines that placed a node. -/
def Graph.placeAll (g : Graph) (layout : LayoutSettings) (report : String) : Graph × Nat :=
  let placements := (Placement.ofReport report).filter fun p => (g.node? p.node).isSome
  (placements.foldl (·.place layout ·) g, placements.length)

end ScriptFlow
