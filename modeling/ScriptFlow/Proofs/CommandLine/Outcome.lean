import ScriptFlow.CommandLine.Outcome
import ScriptFlow.Proofs.Layout.Positions

/-! What the command line owes to the machine. A run fails because of its arguments, of a file or of
an unknown token, and never because of a layout program; what it prints depends on these programs
only where it prints positions, and that is in the JSON view alone. -/
namespace ScriptFlow

/-! ### Views without positions -/

/-- The node without its position. -/
def Node.unplaced (node : Node) : Node := { node with position := none }

theorem Graph.node?_unplaced (g : Graph) (id : NodeId) :
    g.unplaced.node? id = (g.node? id).map Node.unplaced :=
  Array.getElem?_map

theorem Graph.nodes_unplaced (g : Graph) :
    g.unplaced.nodes.toList = g.nodes.toList.map Node.unplaced :=
  Array.toList_map

@[simp] theorem Graph.edges_unplaced (g : Graph) : g.unplaced.edges = g.edges := rfl

private theorem filter_unplaced (nodes : List Node) {holds : Node → Bool}
    (blind : ∀ node, holds (Node.unplaced node) = holds node) :
    (nodes.map Node.unplaced).filter holds = (nodes.filter holds).map Node.unplaced := by
  rw [List.filter_map, Function.comp_def]
  simp only [blind]

theorem Graph.entryNodes_unplaced (g : Graph) :
    g.unplaced.entryNodes = g.entryNodes.map Node.unplaced := by
  rw [entryNodes, nodes_unplaced, filter_unplaced _ fun _ => rfl]
  rfl

theorem Graph.executionNodes_unplaced (g : Graph) :
    g.unplaced.executionNodes = g.executionNodes.map Node.unplaced := by
  rw [executionNodes, nodes_unplaced, filter_unplaced _ fun _ => rfl]
  rfl

theorem Graph.valueNodes_unplaced (g : Graph) :
    g.unplaced.valueNodes = g.valueNodes.map Node.unplaced := by
  rw [valueNodes, nodes_unplaced, filter_unplaced _ fun _ => rfl]
  rfl

private theorem dotLine_unplaced (g : Graph) (edge : Edge) :
    Dot.edgeLine? g.unplaced edge = Dot.edgeLine? g edge := by
  have field (node : Node) (pin : String) (direction : Direction) :
      Dot.fieldIndex? node.unplaced pin direction = Dot.fieldIndex? node pin direction := rfl
  rw [Dot.edgeLine?, Graph.node?_unplaced, Graph.node?_unplaced, Dot.edgeLine?]
  cases g.node? edge.source <;> cases g.node? edge.target <;>
    simp only [Option.map_none, Option.map_some, Option.bind_eq_bind, Option.bind_none,
      Option.bind_some, field]

private theorem dotNode_unplaced (node : Node) : Dot.nodeLine node.unplaced = Dot.nodeLine node := by
  have width : Dot.width node.unplaced = Dot.width node := rfl
  have label : Dot.recordLabel node.unplaced = Dot.recordLabel node := rfl
  rw [Dot.nodeLine, width, label, Dot.nodeLine, Node.unplaced]

/-- A layout program is not told where nodes are. -/
theorem Graph.dot_unplaced (g : Graph) : g.unplaced.dot = g.dot := by
  have nodes : g.unplaced.nodes.toList.map Dot.nodeLine = g.nodes.toList.map Dot.nodeLine := by
    rw [nodes_unplaced, List.map_map, Function.comp_def, funext dotNode_unplaced]
  have entries : g.unplaced.entryNodes.map (fun node => natText node.id ++ "\n") =
      g.entryNodes.map fun node => natText node.id ++ "\n" := by
    rw [entryNodes_unplaced, List.map_map]
    exact List.map_congr_left fun node _ => by rw [Function.comp_apply, Node.unplaced]
  have edges := funext (dotLine_unplaced g)
  unfold dot
  simp only [nodes, entries, edges, edges_unplaced]

namespace CommandLine

private theorem edgeLine_unplaced (colors : Bool) (g : Graph) (edge : Edge) :
    edgeLine colors g.unplaced edge = edgeLine colors g edge := by
  rw [edgeLine, Graph.node?_unplaced, edgeLine]
  cases g.node? edge.target <;> rfl

private theorem nodeLines_unplaced (colors : Bool) (g : Graph) (node : Node) :
    nodeLines colors g.unplaced node.unplaced = nodeLines colors g node := by
  simp only [nodeLines, Graph.edgesFrom, Graph.edges_unplaced, funext (edgeLine_unplaced colors g)]
  rfl

theorem summary_unplaced (colors : Bool) (g : Graph) :
    summary colors g.unplaced = summary colors g := by
  have nodes : nodeLines colors g.unplaced ∘ Node.unplaced = nodeLines colors g :=
    funext (nodeLines_unplaced colors g)
  have warnings : warningLines colors g.unplaced = warningLines colors g := rfl
  simp only [summary, countLine, warnings, Graph.executionNodes_unplaced,
    Graph.valueNodes_unplaced, Graph.edgeCount, Graph.edges_unplaced, List.map_map,
    List.length_map, nodes]

/-- Positions are shown in the JSON view only. -/
theorem graphText_unplaced {view : View} (other : view ≠ .json) (colors : Bool) (g : Graph) :
    graphText colors view g.unplaced = graphText colors view g := by
  cases view with
  | json => exact absurd rfl other
  | dot => exact g.dot_unplaced
  | _ => exact summary_unplaced colors g

end CommandLine

/-! ### Machines with the same files -/

/-- Whichever engine lays it out, a function has the graph that it is decoded to, up to
positions. -/
theorem Package.graph_unplaced (package : Package) (name : Option String) (settings : Settings)
    (engine : Engine) :
    (package.graph name settings engine).map Graph.unplaced =
      (package.decode name settings.decode).map Graph.unplaced := by
  rw [Package.graph]
  cases package.decode name settings.decode with
  | error error => rfl
  | ok g =>
    rw [Except.map, Except.map, Except.map]
    split
    · rw [Graph.layOut]
      cases engine g.dot with
      | error error => rfl
      | ok report => exact congrArg Except.ok Graph.unplaced_foldl_place
    · rfl

/-- Two engines fail to give a function its graph for the same reason, or both give it, up to
positions. -/
private theorem graph_graph (package : Package) (name : Option String) (settings : Settings)
    (engine engine' : Engine) :
    (∃ error, package.graph name settings engine = .error error ∧
      package.graph name settings engine' = .error error) ∨
    ∃ g g', package.graph name settings engine = .ok g ∧
      package.graph name settings engine' = .ok g' ∧ g.unplaced = g'.unplaced := by
  have first := package.graph_unplaced name settings engine
  rw [← package.graph_unplaced name settings engine'] at first
  cases own : package.graph name settings engine <;>
    cases other : package.graph name settings engine' <;> rw [own, other] at first
  case error.error error error' => exact .inl ⟨error, rfl, by cases first; rfl⟩
  case ok.ok g g' => exact .inr ⟨g, g', rfl, rfl, Except.ok.inj first⟩
  all_goals cases first

namespace CommandLine

variable {machine machine' : Machine} {colors : Bool} {arguments : List String}

/-- Work on machines with the same files fails in the same way, or prints the same unless it prints
positions. -/
private theorem shownFunction_of_read (colors : Bool) (package : String) (options : Options)
    (same : machine.read = machine'.read) :
    (∃ failure, shownFunction machine colors package options = .error failure ∧
      shownFunction machine' colors package options = .error failure) ∨
    ∃ text text', shownFunction machine colors package options = .ok text ∧
      shownFunction machine' colors package options = .ok text' ∧
      (options.view ≠ .json → text = text') := by
  have settingsSame :
      loadSettings machine options.config = loadSettings machine' options.config := by
    simp only [loadSettings, same]
  have packageSame : loadPackage machine package = loadPackage machine' package := by
    simp only [loadPackage, same]
  simp only [shownFunction, settingsSame, packageSame]
  cases loadSettings machine' options.config with
  | error failure => exact .inl ⟨failure, rfl, rfl⟩
  | ok settings =>
    cases loadPackage machine' package with
    | error failure => exact .inl ⟨failure, rfl, rfl⟩
    | ok package =>
      cases view : options.view with
      | listing =>
        cases listed : package.listing options.function with
        | error error => exact .inl ⟨.noListing error, by simp [bind, Except.bind, listed]⟩
        | ok text => exact .inr ⟨text, text, by simp [bind, Except.bind, listed]⟩
      | _ =>
        obtain ⟨error, fails, fails'⟩ | ⟨g, g', drawn, drawn', alike⟩ :=
          graph_graph package options.function (options.override settings)
            ((options.override settings).layout.engineOn machine)
            ((options.override settings).layout.engineOn machine')
        · exact .inl ⟨.noGraph error, by simp [bind, Except.bind, fails],
            by simp [bind, Except.bind, fails']⟩
        · refine .inr ⟨graphText colors options.view g, graphText colors options.view g',
            by simp only [bind, Except.bind, drawn, view],
            by simp only [bind, Except.bind, drawn', view], fun other => ?_⟩
          rw [view, ← graphText_unplaced other, alike, graphText_unplaced other]

/-- What layout programs there are changes nothing but positions: the status, the errors and, in any
view but the JSON view, the output are a matter of the arguments and the files. -/
theorem outcome_of_read (same : machine.read = machine'.read) :
    (outcome machine colors arguments).status = (outcome machine' colors arguments).status ∧
    (outcome machine colors arguments).errors = (outcome machine' colors arguments).errors ∧
    ((∀ package options, requestOf arguments = .work package options → options.view ≠ .json) →
      outcome machine colors arguments = outcome machine' colors arguments) := by
  unfold outcome
  cases request : requestOf arguments with
  | work package options =>
    obtain ⟨failure, fails, fails'⟩ | ⟨text, text', shown, shown', alike⟩ :=
      shownFunction_of_read colors package options same
    · simp [fails, fails']
    · simpa [shown, shown'] using alike
  | _ => exact ⟨rfl, rfl, fun _ => rfl⟩

/-- The status tells how far a run came: arguments that are no options end it with 64, work that
fails with 1, and anything else with 0. Only in the last case there is output. -/
theorem outcome_status (machine : Machine) (colors : Bool) (arguments : List String) :
    ((outcome machine colors arguments).status = 64 ↔
      ∃ refusal, requestOf arguments = .refused refusal) ∧
    ((outcome machine colors arguments).status = 1 ↔
      ∃ package options failure, requestOf arguments = .work package options ∧
        shownFunction machine colors package options = .error failure) ∧
    ((outcome machine colors arguments).status ≠ 0 →
      (outcome machine colors arguments).output = "") := by
  unfold outcome
  cases request : requestOf arguments with
  | work package options =>
    cases shown : shownFunction machine colors package options <;> simp [shown, and_assoc]
  | _ => simp

end CommandLine

end ScriptFlow
