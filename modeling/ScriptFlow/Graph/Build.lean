import ScriptFlow.Expr.Equality
import ScriptFlow.Graph.ExecShape
import ScriptFlow.Graph.JumpTable

/-!
Building the graph of a stream. Every top-level instruction becomes one node, unless it is folded
away; its data operands become value nodes, one for each structurally distinct operand; its
execution outputs are queued and connected once all nodes are known.

The state of a construction survives a failure: whatever was built before an unknown token was
reached stays, and the construction can go on with other operands.
-/

namespace ScriptFlow

/-- A graph under construction. -/
structure Build where
  /-- The graph so far. -/
  graph : Graph := {}
  /-- The operands that have a value node, in the order in which they got it. -/
  values : List (Expr String × NodeId) := []
  /-- The execution outputs that are still to be connected. -/
  jumps : JumpTable := {}
  /-- The nodes of the top-level positions. -/
  execNodes : List (Nat × NodeId) := []

/-- The node of an operand equal to `operand` among those that have one. Only operands with the
same token are compared, in order, and the comparison may fail. -/
def findValue (operand : Expr String) :
    List (Expr String × NodeId) → Except ModelGap (Option NodeId)
  | [] => .ok none
  | (seen, id) :: rest =>
    if seen.tokenName = operand.tokenName then
      match seen.agrees operand with
      | .error gap => .error gap
      | .ok true => .ok (some id)
      | .ok false => findValue operand rest
    else findValue operand rest

namespace Build

/-- The build with its graph changed. -/
def onGraph (build : Build) (change : Graph → Graph) : Build :=
  { build with graph := change build.graph }

/-- The build with a new value node for an operand, entered among the values at once. -/
def openValue (build : Build) (operand : Expr String) : Build :=
  let id := build.graph.nextId
  { build with
    graph := (build.graph.addNode operand.tokenName .value).addPin id resultPin .output .data
    values := build.values ++ [(operand, id)] }

/-- The build with the title of a finished value node, or with the remark that it has none. -/
def closeValue (build : Build) (id : NodeId) (title : Option String) (token : String) : Build :=
  match title with
  | some title => build.onGraph (·.relabel id title)
  | none => build.onGraph fun g => (g.markUnmodeled id).diagnose (.unmodeledValue token)

end Build

mutual

/-- Places a value tree: an operand equal to an earlier one shares its node, any other gets a new
node and then its parts. The build after a failure is what was reached until then. -/
def ValueTree.place : ValueTree → Build → Except ModelGap NodeId × Build
  | .gap opcode, build => (.error ⟨opcode⟩, build)
  | .node operand ⟨title, token, parts⟩, build =>
    match findValue operand build.values with
    | .error gap => (.error gap, build)
    | .ok (some id) => (.ok id, build)
    | .ok none =>
      let id := build.graph.nextId
      match placeParts id parts (build.openValue operand) with
      | (.error gap, build) => (.error gap, build)
      | (.ok _, build) => (.ok id, build.closeValue id title token)

/-- Gives a value node its parts, in order. -/
def placeParts (id : NodeId) : List (ValuePart ValueTree) → Build → Except ModelGap Unit × Build
  | [], build => (.ok (), build)
  | .operand pin tree :: rest, build =>
    match tree.place (build.onGraph (·.addPin id pin .input .data)) with
    | (.error gap, build) => (.error gap, build)
    | (.ok value, build) => placeParts id rest (build.onGraph (·.connectData value id pin))
  | .note line :: rest, build => placeParts id rest (build.onGraph (·.annotate id line))
  | .variableRead name :: rest, build =>
    placeParts id rest (build.onGraph (·.registerVariable name id))
  | .gap opcode :: _, build => (.error ⟨opcode⟩, build)

end

namespace Build

/-- The value node of an operand. -/
def value (build : Build) (mode : GraphMode) (operand : Expr String) :
    Except ModelGap NodeId × Build :=
  (operand.valueTree mode).place build

/-- The build with an execution output that continues at an offset, unless the node has it
already. -/
def addFlow (build : Build) (id : NodeId) (pin : String) (target : Nat) : Build :=
  if build.graph.canAddPin id pin .output then
    { build with
      graph := build.graph.addPin id pin .output .execution
      jumps := build.jumps.register id pin target }
  else build

/-- Gives an instruction node its parts, in order. The instruction stands at `offset` and the next
one at `next`. -/
def addParts (mode : GraphMode) (id : NodeId) (offset next : Nat) :
    List ExecPart → Build → Except ModelGap Build
  | [], build => .ok build
  | .enter :: rest, build =>
    addParts mode id offset next rest (build.onGraph (·.addPin id executePin .input .execution))
  | .next pin :: rest, build => addParts mode id offset next rest (build.addFlow id pin next)
  | .jump pin target :: rest, build =>
    addParts mode id offset next rest (build.addFlow id pin target)
  | .input pin operand :: rest, build =>
    match (build.onGraph (·.addPin id pin .input .data)).value mode operand with
    | (.error gap, _) => .error gap
    | (.ok value, build) =>
      addParts mode id offset next rest (build.onGraph (·.connectData value id pin))
  | .malformedLatent function :: rest, build =>
    addParts mode id offset next rest
      (build.onGraph (·.diagnose (.malformedLatent function offset)))

/-- The label of an instruction node. -/
def instructionLabel (offset : Nat) (title : String) : String := natText offset ++ ": " ++ title

/-- The build with the title of a finished instruction node, or with the remark that it has
none. -/
def closeInstruction (build : Build) (id : NodeId) (offset : Nat) (title : Option String)
    (token : String) : Build :=
  match title with
  | some title => build.onGraph (·.relabel id (instructionLabel offset title))
  | none => build.onGraph fun g => (g.markUnmodeled id).diagnose (.unmodeledNode token offset)

/-- The build with the node of the instruction at a position. -/
def addInstruction (build : Build) (settings : DecodeSettings) (position offset size : Nat)
    (e : Expr String) : Except ModelGap Build :=
  let id := build.graph.nextId
  let opened : Build :=
    { build with
      graph := build.graph.addNode (instructionLabel offset e.tokenName) (.instruction offset)
      execNodes := build.execNodes ++ [(position, id)] }
  let shown := e.shown settings.mode
  match addParts settings.mode id offset (offset + size) (e.execParts settings) opened with
  | .error gap => .error gap
  | .ok built =>
    .ok (built.closeInstruction id offset (shown.execShape settings).title shown.tokenName)

/-- Where an instruction that the settings fold away sends its callers. -/
def foldTarget? (settings : DecodeSettings) (offset size : Nat) : Expr String → Option Nat
  | .atom (.marker .tracepoint) | .atom (.marker .wireTracepoint) =>
    if settings.foldTracepoints then some (offset + size) else none
  | .atom (.jump target) => if settings.foldJumps then some target.toNat else none
  | _ => none

/-- The build after one instruction: folded away if the settings say so and no cycle arises, and
otherwise with a node of its own. -/
def addOrFold (build : Build) (settings : DecodeSettings) (position offset size : Nat)
    (e : Expr String) : Except ModelGap Build :=
  match foldTarget? settings offset size e with
  | none => build.addInstruction settings position offset size e
  | some target =>
    match build.jumps.merge? offset target with
    | some jumps => .ok { build with jumps }
    | none =>
      (build.onGraph (·.diagnose (.aliasCycle offset target))).addInstruction settings position
        offset size e

/-- The build after the instructions of a stream from a position and an offset. -/
def addStream (settings : DecodeSettings) (position offset : Nat) :
    List (Expr String) → Build → Except ModelGap Build
  | [], build => .ok build
  | e :: rest, build => do
    let size ← e.size
    let build ← build.addOrFold settings position offset size e
    addStream settings (position + 1) (offset + size) rest build

/-- The build with the entry of a function that starts at an offset. -/
def addEntry (build : Build) (name : String) (start : Nat) : Build :=
  let id := build.graph.nextId
  { build with
    graph := (build.graph.addNode name .entry).addPin id thenPin .output .execution
    jumps := build.jumps.register id thenPin start }

/-- The node of a top-level position. -/
def nodeAt? (build : Build) (position : Nat) : Option NodeId :=
  (build.execNodes.find? (·.1 = position)).map (·.2)

end Build

end ScriptFlow
