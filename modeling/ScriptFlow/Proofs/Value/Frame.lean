import ScriptFlow.Graph.Build
import ScriptFlow.Proofs.Graph.Changes
import ScriptFlow.Proofs.Value.Tree

/-! Placing values leaves everything else alone. Whatever tree is placed, and whether or not it can
be placed to the end, the nodes, the pending jumps and the execution edges that were there stay as
they are; what is new are value nodes and data edges into them. The same holds, but for one node,
while an instruction is given its parts. -/
namespace ScriptFlow

@[simp] theorem Node.withPin_kind (node : Node) (pin : Pin) :
    (node.withPin pin).kind = node.kind := by
  unfold Node.withPin
  split <;> rfl

namespace Build

@[simp] theorem onGraph_graph (b : Build) (change : Graph → Graph) :
    (b.onGraph change).graph = change b.graph := rfl

@[simp] theorem onGraph_values (b : Build) (change : Graph → Graph) :
    (b.onGraph change).values = b.values := rfl

@[simp] theorem onGraph_jumps (b : Build) (change : Graph → Graph) :
    (b.onGraph change).jumps = b.jumps := rfl

@[simp] theorem onGraph_execNodes (b : Build) (change : Graph → Graph) :
    (b.onGraph change).execNodes = b.execNodes := rfl

@[simp] theorem closeValue_values (b : Build) (id : NodeId) (title : Option String)
    (token : String) : (b.closeValue id title token).values = b.values := by
  cases title <;> rfl

/-- Between two builds nodes were added: values, and such nodes as are expected. What the graph and
the table of the first build hold, those of the second hold unchanged. -/
structure Grows (expected : NodeId → Prop) (before after : Build) : Prop where
  values : before.values <+: after.values
  /-- New entries of the table stand for new nodes. -/
  fresh : ∀ entry ∈ after.values, entry ∈ before.values ∨ before.graph.nextId ≤ entry.2
  grown : before.graph.nextId ≤ after.graph.nextId
  nodes : ∀ id < before.graph.nextId, after.graph.node? id = before.graph.node? id
  /-- New nodes are values unless they are expected. -/
  added : ∀ id node, before.graph.nextId ≤ id → after.graph.node? id = some node →
    node.kind = .value ∨ expected id
  /-- New edges are data edges from results into new nodes. -/
  edges : ∃ new, after.graph.edges.toList = before.graph.edges.toList ++ new ∧
    ∀ e ∈ new, e.kind = .data ∧ e.sourcePin = resultPin ∧ before.graph.nextId ≤ e.target

/-- Between two builds only values were added. -/
structure Keeps (before after : Build) : Prop extends Grows (fun _ => False) before after where
  jumps : after.jumps = before.jumps
  execNodes : after.execNodes = before.execNodes

namespace Grows

variable {expected : NodeId → Prop} {base b c : Build} {id : NodeId}

theorem refl (b : Build) : b.Grows expected b where
  values := List.prefix_rfl
  fresh _ := .inl
  grown := Nat.le_refl _
  nodes _ _ := rfl
  added id node outside found := by rw [Graph.node?_none_of_le outside] at found; cases found
  edges := ⟨[], by simp, by simp⟩

theorem trans (first : base.Grows expected b) (second : b.Grows expected c) :
    base.Grows expected c where
  values := first.values.trans second.values
  fresh entry member := by
    rcases second.fresh entry member with old | new
    · exact first.fresh entry old
    · exact .inr (Nat.le_trans first.grown new)
  grown := Nat.le_trans first.grown second.grown
  nodes id inside :=
    (second.nodes id (Nat.lt_of_lt_of_le inside first.grown)).trans (first.nodes id inside)
  added id node outside found := by
    by_cases inside : id < b.graph.nextId
    · rw [second.nodes id inside] at found
      exact first.added id node outside found
    · exact second.added id node (Nat.le_of_not_lt inside) found
  edges := by
    obtain ⟨new, appended, intoNew⟩ := first.edges
    obtain ⟨later, appendedLater, intoLater⟩ := second.edges
    refine ⟨new ++ later, by rw [appendedLater, appended, List.append_assoc], fun e member => ?_⟩
    rcases List.mem_append.mp member with member | member
    · exact intoNew e member
    · obtain ⟨kind, fromResult, isNew⟩ := intoLater e member
      exact ⟨kind, fromResult, Nat.le_trans first.grown isNew⟩

theorem imp {expected' : NodeId → Prop} (grows : base.Grows expected b)
    (weaker : ∀ id, expected id → expected' id) : base.Grows expected' b :=
  { grows with added := fun id node outside found =>
      (grows.added id node outside found).imp_right (weaker id) }

/-- Inputs of earlier nodes are fed as before. -/
theorem dataSources (grows : base.Grows expected b) (inside : id < base.graph.nextId)
    (pin : String) : b.graph.dataSources id pin = base.graph.dataSources id pin := by
  obtain ⟨new, appended, intoNew⟩ := grows.edges
  exact Graph.dataSources_append appended
    (fun e member _ => Nat.ne_of_gt (Nat.lt_of_lt_of_le inside (intoNew e member).2.2)) pin

/-- A new node may be changed in everything but its kind. -/
theorem modifyNode (grows : base.Grows expected b) (isNew : base.graph.nextId ≤ id)
    {change : Node → Node} (kind : ∀ node, (change node).kind = node.kind) :
    base.Grows expected (b.onGraph (·.modifyNode id change)) where
  values := grows.values
  fresh := grows.fresh
  grown := by simpa using grows.grown
  nodes other inside := by
    have different : other ≠ id := Nat.ne_of_lt (Nat.lt_of_lt_of_le inside isNew)
    simpa [different] using grows.nodes other inside
  added other node outside found := by
    by_cases same : other = id
    · subst same
      simp only [onGraph_graph, Graph.node?_modifyNode, ↓reduceIte, Option.map_eq_some_iff]
        at found
      obtain ⟨old, oldFound, rfl⟩ := found
      rw [kind]
      exact grows.added other old isNew oldFound
    · exact grows.added other node outside (by simpa [same] using found)
  edges := by simpa using grows.edges

theorem addPin (grows : base.Grows expected b) (isNew : base.graph.nextId ≤ id) (name : String)
    (direction : Direction) (kind : FlowKind) :
    base.Grows expected (b.onGraph (·.addPin id name direction kind)) := by
  simp only [Graph.addPin_eq_modifyNode]
  exact grows.modifyNode isNew fun node => node.withPin_kind _

theorem connectData (grows : base.Grows expected b) (isNew : base.graph.nextId ≤ id)
    (value : NodeId) (pin : String) :
    base.Grows expected (b.onGraph (·.connectData value id pin)) where
  values := grows.values
  fresh := grows.fresh
  grown := grows.grown
  nodes := grows.nodes
  added := grows.added
  edges := by
    obtain ⟨new, appended, intoNew⟩ := grows.edges
    refine ⟨new ++ [⟨.data, value, resultPin, id, pin⟩], ?_, fun e member => ?_⟩
    · simp [Graph.connectData, appended]
    · rcases List.mem_append.mp member with member | member
      · exact intoNew e member
      · rw [List.mem_singleton.mp member]
        exact ⟨rfl, rfl, isNew⟩

/-- Growth concerns the table, the nodes and the edges, and nothing else. -/
theorem same (grows : base.Grows expected b) (values : c.values = b.values)
    (nodes : c.graph.nodes = b.graph.nodes) (edges : c.graph.edges = b.graph.edges) :
    base.Grows expected c where
  values := values ▸ grows.values
  fresh := values ▸ grows.fresh
  grown := by
    rw [Graph.nextId, Graph.nextId, nodes]
    exact grows.grown
  nodes id inside := by
    rw [Graph.node?, nodes]
    exact grows.nodes id inside
  added id node outside found := by
    rw [Graph.node?, nodes] at found
    exact grows.added id node outside found
  edges := edges ▸ grows.edges

theorem diagnose (grows : base.Grows expected b) (d : Diagnostic) :
    base.Grows expected (b.onGraph (·.diagnose d)) :=
  grows.same rfl rfl rfl

theorem registerVariable (grows : base.Grows expected b) (name : String) (node : NodeId) :
    base.Grows expected (b.onGraph (·.registerVariable name node)) :=
  grows.same rfl rfl rfl

/-- A new node is a value or expected. -/
theorem addNode (grows : base.Grows expected b) (label : String) {kind : NodeKind}
    (fits : kind = .value ∨ expected b.graph.nextId) :
    base.Grows expected (b.onGraph (·.addNode label kind)) where
  values := grows.values
  fresh := grows.fresh
  grown := by simpa using Nat.le_succ_of_le grows.grown
  nodes other inside := by
    have different : other ≠ b.graph.nextId :=
      Nat.ne_of_lt (Nat.lt_of_lt_of_le inside grows.grown)
    simpa [different] using grows.nodes other inside
  added other node outside found := by
    by_cases same : other = b.graph.nextId
    · simp only [onGraph_graph, Graph.node?_addNode, same, ↓reduceIte, Option.some.injEq] at found
      rw [← found, same]
      exact fits
    · exact grows.added other node outside (by simpa [same] using found)
  edges := grows.edges

theorem openValue (grows : base.Grows expected b) (operand : Expr String) :
    base.Grows expected (b.openValue operand) := by
  have opened := (grows.addNode operand.tokenName (.inl rfl)).addPin grows.grown resultPin
    .output .data
  refine { opened with values := opened.values.trans (List.prefix_append _ _), fresh := ?_ }
  intro entry member
  rcases List.mem_append.mp member with old | new
  · exact opened.fresh entry old
  · rw [List.mem_singleton.mp new]
    exact .inr grows.grown

theorem closeValue (grows : base.Grows expected b) (isNew : base.graph.nextId ≤ id)
    (title : Option String) (token : String) : base.Grows expected (b.closeValue id title token) := by
  cases title with
  | some title => exact grows.modifyNode isNew fun _ => rfl
  | none =>
    have marked : base.Grows expected (b.onGraph (·.markUnmodeled id)) :=
      grows.modifyNode isNew fun _ => rfl
    exact marked.diagnose _

end Grows

namespace Keeps

variable {base b c : Build} {id : NodeId}

theorem refl (b : Build) : b.Keeps b := ⟨.refl b, rfl, rfl⟩

theorem trans (first : base.Keeps b) (second : b.Keeps c) : base.Keeps c :=
  ⟨first.toGrows.trans second.toGrows, second.jumps.trans first.jumps,
    second.execNodes.trans first.execNodes⟩

/-- A change of the graph concerns neither the pending jumps nor the instruction nodes. -/
theorem onGraph (kept : base.Keeps b) {change : Graph → Graph}
    (grows : base.Grows (fun _ => False) (b.onGraph change)) : base.Keeps (b.onGraph change) :=
  ⟨grows, kept.jumps, kept.execNodes⟩

theorem openValue (kept : base.Keeps b) (operand : Expr String) :
    base.Keeps (b.openValue operand) :=
  ⟨kept.toGrows.openValue operand, kept.jumps, kept.execNodes⟩

theorem closeValue (kept : base.Keeps b) (isNew : base.graph.nextId ≤ id) (title : Option String)
    (token : String) : base.Keeps (b.closeValue id title token) := by
  have grows := kept.toGrows.closeValue isNew title token
  cases title with
  | some title => exact ⟨grows, kept.jumps, kept.execNodes⟩
  | none => exact ⟨grows, kept.jumps, kept.execNodes⟩

end Keeps

/-! ### What placing preserves -/

/-- A property that survives what a node is given, apart from the placing of the values that feed
it. -/
structure KeptByParts (holds : Build → Prop) (id : NodeId) : Prop where
  pinned : ∀ b pin, holds b → holds (b.onGraph (·.addPin id pin .input .data))
  connected : ∀ b value pin, holds b → holds (b.onGraph (·.connectData value id pin))
  noted : ∀ b line, holds b → holds (b.onGraph (·.annotate id line))
  registered : ∀ b name, holds b → holds (b.onGraph (·.registerVariable name id))

/-- What a node is given does not concern the table. -/
theorem KeptByParts.of_values (holds : List (Expr String × NodeId) → Prop) (id : NodeId) :
    KeptByParts (fun b => holds b.values) id where
  pinned _ _ before := before
  connected _ _ _ before := before
  noted _ _ before := before
  registered _ _ before := before

/-- What placing each of the trees keeps, giving a node its parts keeps, whether or not it comes to
the end of them. -/
theorem placeParts_preserves {holds : Build → Prop} {id : NodeId} (kept : KeptByParts holds id)
    {parts : List (ValuePart ValueTree)}
    (feeds : ∀ pin tree, ValuePart.operand pin tree ∈ parts →
      ∀ b, holds b → holds (tree.place b).2)
    {b : Build} (before : holds b) : holds (placeParts id parts b).2 := by
  induction parts generalizing b with
  | nil => exact before
  | cons part rest ih =>
    have restFeeds := fun pin tree member => feeds pin tree (List.mem_cons_of_mem _ member)
    cases part with
    | operand pin tree =>
      have fed := feeds pin tree (by simp) _ (kept.pinned b pin before)
      rw [placeParts]
      rcases placed : tree.place (b.onGraph (·.addPin id pin .input .data)) with ⟨result, after⟩
      rw [placed] at fed
      cases result with
      | error gap => exact fed
      | ok value => exact ih restFeeds (kept.connected after value pin fed)
    | note line => exact ih restFeeds (kept.noted b line before)
    | variableRead name => exact ih restFeeds (kept.registered b name before)
    | gap opcode => exact before

/-- Whatever a new node is given, only values are added. -/
private theorem keeps_keptByParts {base : Build} {id : NodeId} (isNew : base.graph.nextId ≤ id) :
    KeptByParts base.Keeps id where
  pinned _ pin kept := kept.onGraph (kept.addPin isNew pin .input .data)
  connected _ value pin kept := kept.onGraph (kept.connectData isNew value pin)
  noted _ _ kept := kept.onGraph (kept.modifyNode isNew fun _ => rfl)
  registered _ name kept := kept.onGraph (kept.registerVariable name id)

/-- Placing a tree only adds values. -/
theorem place_keeps {base : Build} (tree : ValueTree) (b : Build) (kept : base.Keeps b) :
    base.Keeps (tree.place b).2 := by
  induction tree generalizing b with
  | gap opcode => exact kept
  | node operand title token parts ih =>
    rw [ValueTree.place]
    split
    · exact kept
    · exact kept
    · have isNew : base.graph.nextId ≤ b.graph.nextId := kept.grown
      have placed := placeParts_preserves (keeps_keptByParts isNew) ih (kept.openValue operand)
      dsimp only
      rcases result : placeParts b.graph.nextId parts (b.openValue operand) with ⟨outcome, after⟩
      rw [result] at placed
      cases outcome with
      | error gap => exact placed
      | ok _ => exact placed.closeValue isNew title token

/-- Giving a node its parts enters their operands at the end of the table. -/
theorem placeParts_values (id : NodeId) (parts : List (ValuePart ValueTree)) (b : Build) :
    b.values <+: (placeParts id parts b).2.values := by
  refine placeParts_preserves (.of_values (b.values <+: ·) id) ?_ List.prefix_rfl
  intro pin tree member c entered
  exact entered.trans (place_keeps tree c (.refl c)).values

/-- Asking for the value node of an operand only adds values. -/
theorem value_keeps (b : Build) (mode : GraphMode) (operand : Expr String) :
    b.Keeps (b.value mode operand).2 :=
  place_keeps _ b (.refl b)

end Build

end ScriptFlow
