import ScriptFlow.Graph.Basic

/-!
The graph as DOT text for a layout program. A node is a record with its title and its pins, inputs
before outputs; the fields of the record are numbered in the order of the pins, and an edge
is attached to fields. Function entries share the first rank.
-/

namespace ScriptFlow

namespace Dot

/-- One character of a record label. -/
def escapeChar (c : Char) : List Char :=
  if c ∈ ['\x7b', '\x7d', '|', '<', '>', '"', '\\'] then ['\\', c]
  else if c = '\n' then ['\\', 'n']
  else [c]

/-- A text inside a record label. -/
def escape (text : String) : String := String.ofList (text.toList.flatMap escapeChar)

/-- Texts with a separator between them. -/
def joinWith (separator : String) : List String → String
  | [] => ""
  | [text] => text
  | text :: rest => text ++ separator ++ joinWith separator rest

/-- The fields of pins that face one way, in order. -/
def pinFields (letter : String) (pins : List Pin) : String :=
  joinWith " | " (pins.zipIdx.map fun (pin, i) =>
    "<" ++ letter ++ natText i ++ ">" ++ escape pin.name)

/-- The title of a record: the label and the annotations, line by line. -/
def title (node : Node) : String := joinWith "\\n" ((node.label :: node.annotations).map escape)

/-- The record label of a node. -/
def recordLabel (node : Node) : String :=
  "\x7b \x7b" ++ title node ++ "\x7d | \x7b \x7b " ++ pinFields "i" node.inputs ++
    " \x7d | \x7b " ++ pinFields "o" node.outputs ++ " \x7d \x7d \x7d"

/-- The width of a node: half a unit for each pin, and for one at least, with two decimals. It is
exact, where a number of single precision would be rounded above `2 ^ 24` pins. -/
def width (node : Node) : String :=
  let pins := max node.pins.length 1
  natText (pins / 2) ++ (if pins % 2 = 0 then ".00" else ".50")

/-- The line of a node. -/
def nodeLine (node : Node) : String :=
  natText node.id ++ " [shape=\"record\", width=" ++ width node ++ ", label=\"" ++
    recordLabel node ++ "\"]\n"

/-- The number of a pin among those that face the same way. -/
def fieldIndex? (node : Node) (pin : String) (direction : Direction) : Option Nat :=
  (node.pinsFacing direction).findIdx? (·.name = pin)

/-- How strongly an edge is kept straight: execution more than data. -/
def weight : FlowKind → Nat
  | .execution => 3
  | .data => 1

/-- The line of an edge; nothing when one of its ends has no field. -/
def edgeLine? (g : Graph) (edge : Edge) : Option String := do
  let source ← g.node? edge.source
  let target ← g.node? edge.target
  let output ← fieldIndex? source edge.sourcePin .output
  let input ← fieldIndex? target edge.targetPin .input
  return natText edge.source ++ ":o" ++ natText output ++ ":e -> " ++ natText edge.target ++
    ":i" ++ natText input ++ ":w [weight = " ++ natText (weight edge.kind) ++ "]\n"

end Dot

/-- The DOT text of a graph. -/
def Graph.dot (g : Graph) : String :=
  "strict digraph \x7b\nrankdir=\"LR\"\n" ++
    String.join (g.nodes.toList.map Dot.nodeLine) ++
    String.join (g.edges.toList.filterMap (Dot.edgeLine? g)) ++
    "\x7b\nrank = \"source\";\n" ++
    String.join (g.entryNodes.map fun node => natText node.id ++ "\n") ++
    "\x7d\n\x7d\n"

end ScriptFlow
