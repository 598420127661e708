import ScriptFlow.Collection.OrderedMap
import ScriptFlow.Graph.Diagnostic
import ScriptFlow.Number.Single

/-!
Node graphs. A node has named pins; execution edges lead from the execution outputs of function
entries and instructions to the `execute` pin of an instruction, data edges from the `result` of a
value to a data input. The graph also indexes the variables that its values read.
-/

namespace ScriptFlow

/-- A node of a graph: its index. -/
abbrev NodeId := Nat

/-- The pin at which execution enters a node. -/
def executePin : String := "execute"
/-- The pin at which execution usually leaves a node. -/
def thenPin : String := "then"
/-- The pin that carries the result of a value. -/
def resultPin : String := "result"

/-- Which way a pin faces. -/
inductive Direction where
  | input
  | output
  deriving DecidableEq

/-- What a pin or an edge carries. -/
inductive FlowKind where
  | execution
  | data
  deriving DecidableEq

/-- A place of a node where edges attach. -/
structure Pin where
  name : String
  direction : Direction
  kind : FlowKind
  deriving DecidableEq

/-- What a node stands for. -/
inductive NodeKind where
  /-- The start of a function. -/
  | entry
  /-- The instruction at an offset. -/
  | instruction (offset : Nat)
  /-- A value that instructions or other values use. -/
  | value
  deriving DecidableEq

/-- A node of a graph. -/
structure Node where
  id : NodeId
  /-- The title shown to a reader. -/
  label : String
  kind : NodeKind
  /-- The pins in order. -/
  pins : List Pin := []
  /-- Further lines shown to a reader. -/
  annotations : List String := []
  /-- Whether the operation has no shape of its own. -/
  unmodeled : Bool := false
  /-- Where the node is drawn, once it has been placed. -/
  position : Option (Single × Single) := none
  deriving DecidableEq

namespace Node

/-- The pin with a name and a direction. -/
def pin? (node : Node) (name : String) (direction : Direction) : Option Pin :=
  node.pins.find? fun pin => pin.name = name ∧ pin.direction = direction

/-- The pins that face one way, in order. -/
def pinsFacing (node : Node) (direction : Direction) : List Pin :=
  node.pins.filter (·.direction = direction)

/-- The input pins in order. -/
def inputs (node : Node) : List Pin := node.pinsFacing .input

/-- The output pins in order. -/
def outputs (node : Node) : List Pin := node.pinsFacing .output

/-- Whether execution passes through the node. -/
def isExecution (node : Node) : Bool := node.kind ≠ .value

/-- The node with a further pin at the end. -/
def pushPin (node : Node) (pin : Pin) : Node := { node with pins := node.pins ++ [pin] }

end Node

/-- A connection between two pins. -/
structure Edge where
  kind : FlowKind
  source : NodeId
  sourcePin : String
  target : NodeId
  targetPin : String
  deriving DecidableEq

/-- A graph of nodes and edges. -/
structure Graph where
  /-- The nodes; the index of a node is its id. -/
  nodes : Array Node := #[]
  /-- The edges in the order in which they were made. -/
  edges : Array Edge := #[]
  /-- What was found while the graph was built. -/
  diagnostics : Array Diagnostic := #[]
  /-- For each variable, by qualified name, the values that read it. -/
  variableReaders : OrderedMap String (List NodeId) := {}

namespace Graph

/-- The node with an id. -/
def node? (g : Graph) (id : NodeId) : Option Node := g.nodes[id]?

/-- The graph with one node changed; nothing changes if there is no such node. -/
def modifyNode (g : Graph) (id : NodeId) (change : Node → Node) : Graph :=
  { g with nodes := g.nodes.modify id change }

/-- The id of the next node. -/
def nextId (g : Graph) : NodeId := g.nodes.size

/-- The graph with a new node, whose id is the next one. -/
def addNode (g : Graph) (label : String) (kind : NodeKind) : Graph :=
  { g with nodes := g.nodes.push { id := g.nextId, label, kind } }

/-- Whether a pin can be added: the node exists and has no pin of that name and direction. -/
def canAddPin (g : Graph) (id : NodeId) (name : String) (direction : Direction) : Bool :=
  match g.node? id with
  | some node => (node.pin? name direction).isNone
  | none => false

/-- The graph with a pin added at the end of a node, if it can be added. -/
def addPin (g : Graph) (id : NodeId) (name : String) (direction : Direction) (kind : FlowKind) :
    Graph :=
  if g.canAddPin id name direction then g.modifyNode id (·.pushPin ⟨name, direction, kind⟩) else g

/-- The graph with a further edge. -/
def addEdge (g : Graph) (edge : Edge) : Graph := { g with edges := g.edges.push edge }

/-- Whether an edge leaves an execution output. -/
def leaves (source : NodeId) (pin : String) (edge : Edge) : Bool :=
  edge.kind = .execution ∧ edge.source = source ∧ edge.sourcePin = pin

/-- Where an execution output leads. -/
def execTarget? (g : Graph) (source : NodeId) (pin : String) : Option NodeId :=
  (g.edges.find? (leaves source pin)).map (·.target)

/-- Whether an execution output is free: it has at most one destination. -/
def canConnectExec (g : Graph) (source : NodeId) (pin : String) : Bool :=
  (g.execTarget? source pin).isNone

/-- The graph with an execution output connected to the `execute` pin of a node, if the output is
free. -/
def connectExec (g : Graph) (source : NodeId) (pin : String) (target : NodeId) : Graph :=
  if g.canConnectExec source pin then g.addEdge ⟨.execution, source, pin, target, executePin⟩
  else g

/-- The graph with the result of a value connected to a data input. -/
def connectData (g : Graph) (value target : NodeId) (pin : String) : Graph :=
  g.addEdge ⟨.data, value, resultPin, target, pin⟩

/-- The readers of a variable with one more, unless it is one already. -/
def addReader (node : NodeId) (readers : Option (List NodeId)) : List NodeId :=
  let readers := readers.getD []
  if node ∈ readers then readers else readers ++ [node]

/-- The graph with a node entered as a reader of a variable. -/
def registerVariable (g : Graph) (name : String) (node : NodeId) : Graph :=
  { g with variableReaders := g.variableReaders.alter name (addReader node) }

/-- The graph with a further diagnostic. -/
def diagnose (g : Graph) (diagnostic : Diagnostic) : Graph :=
  { g with diagnostics := g.diagnostics.push diagnostic }

/-- The graph with a line added to the text of a node. -/
def annotate (g : Graph) (id : NodeId) (line : String) : Graph :=
  g.modifyNode id fun node => { node with annotations := node.annotations ++ [line] }

/-- The graph with a node retitled. -/
def relabel (g : Graph) (id : NodeId) (label : String) : Graph :=
  g.modifyNode id fun node => { node with label }

/-- The graph with a node marked as having no shape of its own. -/
def markUnmodeled (g : Graph) (id : NodeId) : Graph :=
  g.modifyNode id fun node => { node with unmodeled := true }

/-- The value nodes. -/
def valueNodes (g : Graph) : List Node := g.nodes.toList.filter (·.kind = .value)

/-- The nodes through which execution passes. -/
def executionNodes (g : Graph) : List Node := g.nodes.toList.filter (·.isExecution)

/-- The function entries. -/
def entryNodes (g : Graph) : List Node := g.nodes.toList.filter (·.kind = .entry)

/-- The first instruction node for an offset. -/
def instructionAt? (g : Graph) (offset : Nat) : Option Node :=
  g.nodes.find? (·.kind = .instruction offset)

/-- The edges that leave a node. -/
def edgesFrom (g : Graph) (id : NodeId) : List Edge := g.edges.toList.filter (·.source = id)

/-- The edges that enter a node. -/
def edgesInto (g : Graph) (id : NodeId) : List Edge := g.edges.toList.filter (·.target = id)

/-- The number of edges of a kind. -/
def edgeCount (g : Graph) (kind : FlowKind) : Nat :=
  (g.edges.toList.filter (·.kind = kind)).length

end Graph

end ScriptFlow
