import ScriptFlow.Graph.Basic

/-! What each change of a graph does to its nodes and to the edges into a data input. A change
speaks of one node and leaves the others as they are; edges are only ever added. -/
namespace ScriptFlow

/-- The node with a pin at the end, unless it has one of that name and direction. -/
def Node.withPin (node : Node) (pin : Pin) : Node :=
  if (node.pin? pin.name pin.direction).isSome then node else node.pushPin pin

namespace Graph

variable (g : Graph) (id other : NodeId)

/-- The values that feed a data input, in the order in which they were connected. -/
def dataSources (pin : String) : List NodeId :=
  (g.edges.toList.filter fun e => e.kind = .data ∧ e.target = id ∧ e.targetPin = pin).map (·.source)

/-! ### Nodes -/

theorem node?_lt {g : Graph} {id : NodeId} {node : Node} (found : g.node? id = some node) :
    id < g.nextId :=
  (Array.getElem?_eq_some_iff.mp found).choose

theorem node?_none_of_le {g : Graph} {id : NodeId} (outside : g.nextId ≤ id) :
    g.node? id = none :=
  Array.getElem?_eq_none outside

@[simp] theorem node?_addNode (label : String) (kind : NodeKind) :
    (g.addNode label kind).node? id =
      if id = g.nextId then some { id := g.nextId, label, kind } else g.node? id := by
  rw [node?, addNode, Array.getElem?_push]
  rfl

@[simp] theorem nextId_addNode (label : String) (kind : NodeKind) :
    (g.addNode label kind).nextId = g.nextId + 1 := by
  simp [nextId, addNode]

@[simp] theorem edges_addNode (label : String) (kind : NodeKind) :
    (g.addNode label kind).edges = g.edges := rfl

@[simp] theorem node?_modifyNode (change : Node → Node) :
    (g.modifyNode id change).node? other =
      if other = id then (g.node? other).map change else g.node? other := by
  simp only [node?, modifyNode, Array.getElem?_modify, eq_comm]

@[simp] theorem nextId_modifyNode (change : Node → Node) :
    (g.modifyNode id change).nextId = g.nextId := by
  simp [nextId, modifyNode]

@[simp] theorem edges_modifyNode (change : Node → Node) :
    (g.modifyNode id change).edges = g.edges := rfl

theorem ext_nodes {g g' : Graph} (nodes : ∀ id, g.node? id = g'.node? id)
    (edges : g.edges = g'.edges) (diagnostics : g.diagnostics = g'.diagnostics)
    (readers : g.variableReaders = g'.variableReaders) : g = g' := by
  obtain ⟨_, _, _, _⟩ := g
  obtain ⟨_, _, _, _⟩ := g'
  have same := Array.ext_getElem? nodes
  simp_all

/-- Adding a pin is a change of one node. -/
theorem addPin_eq_modifyNode (name : String) (direction : Direction) (kind : FlowKind) :
    g.addPin id name direction kind = g.modifyNode id (·.withPin ⟨name, direction, kind⟩) := by
  refine ext_nodes (fun other => ?_) ?_ ?_ ?_
  · unfold addPin canAddPin
    cases found : g.node? id with
    | none =>
      by_cases same : other = id
      · simp [same, found]
      · simp [same]
    | some node =>
      by_cases same : other = id
      · subst same
        cases present : node.pin? name direction <;> simp [found, present, Node.withPin]
      · cases present : node.pin? name direction <;> simp [present, same]
  all_goals
    unfold addPin
    split <;> rfl

@[simp] theorem nextId_addPin (name : String) (direction : Direction) (kind : FlowKind) :
    (g.addPin id name direction kind).nextId = g.nextId := by
  simp [addPin_eq_modifyNode]

@[simp] theorem edges_addPin (name : String) (direction : Direction) (kind : FlowKind) :
    (g.addPin id name direction kind).edges = g.edges := by
  simp [addPin_eq_modifyNode]

@[simp] theorem node?_addEdge (edge : Edge) : (g.addEdge edge).node? id = g.node? id := rfl

@[simp] theorem nextId_addEdge (edge : Edge) : (g.addEdge edge).nextId = g.nextId := rfl

@[simp] theorem node?_diagnose (d : Diagnostic) : (g.diagnose d).node? id = g.node? id := rfl

@[simp] theorem nextId_diagnose (d : Diagnostic) : (g.diagnose d).nextId = g.nextId := rfl

@[simp] theorem edges_diagnose (d : Diagnostic) : (g.diagnose d).edges = g.edges := rfl

@[simp] theorem node?_registerVariable (name : String) (node : NodeId) :
    (g.registerVariable name node).node? id = g.node? id := rfl

@[simp] theorem nextId_registerVariable (name : String) (node : NodeId) :
    (g.registerVariable name node).nextId = g.nextId := rfl

@[simp] theorem edges_registerVariable (name : String) (node : NodeId) :
    (g.registerVariable name node).edges = g.edges := rfl

/-! ### Edges -/

@[simp] theorem edges_addEdge (edge : Edge) :
    (g.addEdge edge).edges.toList = g.edges.toList ++ [edge] := by
  simp [addEdge]

/-- Graphs with the same edges feed every input alike. -/
theorem dataSources_congr {g g' : Graph} (edges : g.edges = g'.edges) (id : NodeId)
    (pin : String) : g.dataSources id pin = g'.dataSources id pin := by
  rw [dataSources, dataSources, edges]

/-- Edges that are no data edges into a node do not change what feeds it. -/
theorem dataSources_append {g g' : Graph} {new : List Edge} {id : NodeId}
    (edges : g'.edges.toList = g.edges.toList ++ new)
    (elsewhere : ∀ e ∈ new, e.kind = .data → e.target ≠ id) (pin : String) :
    g'.dataSources id pin = g.dataSources id pin := by
  have none : new.filter (fun e => e.kind = .data ∧ e.target = id ∧ e.targetPin = pin) = [] := by
    rw [List.filter_eq_nil_iff]
    intro e member holds
    simp only [decide_eq_true_eq] at holds
    exact elsewhere e member holds.1 holds.2.1
  rw [dataSources, dataSources, edges, List.filter_append, none, List.append_nil]

theorem dataSources_connectData (value target : NodeId) (pin pin' : String) :
    (g.connectData value target pin).dataSources id pin' =
      g.dataSources id pin' ++ if target = id ∧ pin = pin' then [value] else [] := by
  simp only [connectData, dataSources, edges_addEdge, List.filter_append, List.map_append]
  by_cases here : target = id ∧ pin = pin' <;> simp [here]

/-- Nothing feeds an input of a node that no data edge enters. -/
theorem dataSources_eq_nil {g : Graph} {id : NodeId}
    (free : ∀ e ∈ g.edges, e.kind = .data → e.target ≠ id) (pin : String) : g.dataSources id pin = [] := by
  rw [dataSources, List.map_eq_nil_iff, List.filter_eq_nil_iff]
  intro e member holds
  simp only [decide_eq_true_eq] at holds
  exact free e (Array.mem_toList_iff.mp member) holds.1 holds.2.1

end Graph

end ScriptFlow
