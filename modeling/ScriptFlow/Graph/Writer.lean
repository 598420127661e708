import ScriptFlow.Graph.Basic
import ScriptFlow.Json.Writer

/-!
Graphs as JSON documents, with their fields in a fixed order.
-/

namespace ScriptFlow

def Direction.text : Direction → String
  | .input => "in"
  | .output => "out"

def FlowKind.text : FlowKind → String
  | .execution => "execution"
  | .data => "data"

def Pin.toJson (pin : Pin) : Json :=
  .record [("name", .ofText pin.name), ("direction", .ofText pin.direction.text),
    ("kind", .ofText pin.kind.text)]

def NodeKind.toJson : NodeKind → Json
  | .entry => .record [("kind", .ofText "function_entry")]
  | .instruction offset =>
    .record [("kind", .ofText "instruction"), ("offset", .ofNat offset)]
  | .value => .record [("kind", .ofText "value")]

/-- A node, given how its position is written. -/
def Node.toJsonWith (position : Single × Single → Json) (node : Node) : Json :=
  .record [("id", .ofNat node.id), ("label", .ofText node.label), ("kind", node.kind.toJson),
    ("pins", .array (node.pins.map Pin.toJson)),
    ("annotations", .array (node.annotations.map .ofText)), ("unmodeled", .bool node.unmodeled),
    ("position", (node.position.map position).getD .null)]

def Edge.toJson (edge : Edge) : Json :=
  .record [("kind", .ofText edge.kind.text), ("from", .ofNat edge.source),
    ("from_pin", .ofText edge.sourcePin), ("to", .ofNat edge.target),
    ("to_pin", .ofText edge.targetPin)]

def Diagnostic.toJson (d : Diagnostic) : Json :=
  .record [("code", .ofText d.code.text), ("message", .ofText d.message),
    ("offset", (d.offset.map .ofNat).getD .null), ("severity", .ofText d.severity.text)]

/-- The fields of a graph, given how positions are written. -/
def Graph.fieldsWith (position : Single × Single → Json) (g : Graph) : List (String × Json) :=
  [("nodes", .array (g.nodes.toList.map (Node.toJsonWith position))),
    ("edges", .array (g.edges.toList.map Edge.toJson)),
    ("diagnostics", .array (g.diagnostics.toList.map Diagnostic.toJson)),
    ("variables", .record (g.variableReaders.entries.map fun (name, readers) =>
      (name, .array (readers.map .ofNat))))]

/-- A graph as a document. -/
def Graph.toJson (g : Graph) : Json :=
  .record (g.fieldsWith fun (x, y) => .array [.ofSingle x, .ofSingle y])

end ScriptFlow
