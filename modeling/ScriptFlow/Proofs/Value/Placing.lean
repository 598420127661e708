import ScriptFlow.Proofs.Value.Frame
import ScriptFlow.Proofs.Value.Shape

/-! The table of values and the graph agree. Every entry of the table has a node that shows what the
shape of its operand says, each of whose inputs is fed by exactly one value: the one that the table
has for the operand at that input, up to normal form. A node is entered before it has its inputs, so
the agreement is stated up to the nodes that are still open; each step of placing a tree preserves
it, and at the end nothing is open. -/
namespace ScriptFlow

/-- The table has a node for an operand, or for one with the same normal form. -/
def Listed (values : List (Expr String × NodeId)) (operand : Expr String) (id : NodeId) : Prop :=
  ∃ seen, (seen, id) ∈ values ∧ seen.normal = operand.normal

/-- The table has a node for the operand of a tree. -/
def ValueTree.Stands (values : List (Expr String × NodeId)) (id : NodeId) : ValueTree → Prop
  | .gap _ => False
  | .node operand _ => Listed values operand id

/-- The pins of a value node: its result, and an input for each part that is fed. -/
def valuePins (parts : List (ValuePart ValueTree)) : List Pin :=
  ⟨resultPin, .output, .data⟩ :: (inputNames parts).map fun name => ⟨name, .input, .data⟩

/-- The node shows the given parts: it has their lines and their inputs, and each input is fed by
the one value that stands for it. -/
structure Graph.Dressed (g : Graph) (values : List (Expr String × NodeId)) (id : NodeId)
    (label : String) (unmodeled : Bool) (parts : List (ValuePart ValueTree)) : Prop where
  node : g.node? id = some
    { id, label, kind := .value, pins := valuePins parts, annotations := notesOf parts, unmodeled }
  fed : ∀ pin tree, ValuePart.operand pin tree ∈ parts →
    ∃ source, g.dataSources id pin = [source] ∧ tree.Stands values source
  bare : ∀ pin, pin ∉ inputNames parts → g.dataSources id pin = []

/-- The node shows what the shape of an operand says. -/
def Graph.Wired (mode : GraphMode) (g : Graph) (values : List (Expr String × NodeId))
    (operand : Expr String) (id : NodeId) : Prop :=
  ∃ shape, operand.valueTree mode = .node operand shape ∧
    g.Dressed values id (shape.title.getD operand.tokenName) shape.title.isNone shape.parts

/-- Table and graph agree, up to the nodes that are open. -/
structure Shares (mode : GraphMode) (isOpen : NodeId → Prop) (g : Graph)
    (values : List (Expr String × NodeId)) : Prop where
  known : ∀ e id, (e, id) ∈ values → e.known = true
  /-- No two entries have one normal form. -/
  distinct : (values.map (·.1.normal)).Nodup
  /-- No two entries have one node. -/
  single : (values.map (·.2)).Nodup
  /-- The nodes of the table are values, -/
  listed : ∀ e id, (e, id) ∈ values → ∃ node, g.node? id = some node ∧ node.kind = .value
  /-- and all values are in the table. -/
  complete : ∀ id node, g.node? id = some node → node.kind = .value → ∃ e, (e, id) ∈ values
  inside : ∀ edge ∈ g.edges, edge.kind = .data → edge.target < g.nextId
  wired : ∀ e id, (e, id) ∈ values → ¬ isOpen id → g.Wired mode values e id

variable {mode : GraphMode} {isOpen : NodeId → Prop} {g g' : Graph}
  {values values' : List (Expr String × NodeId)} {id : NodeId} {label : String} {unmodeled : Bool}
  {parts : List (ValuePart ValueTree)}

theorem Listed.mono (listed : Listed values operand id) (more : values ⊆ values') :
    Listed values' operand id :=
  listed.imp fun _ entry => ⟨more entry.1, entry.2⟩

theorem ValueTree.Stands.mono {tree : ValueTree} (stands : tree.Stands values id)
    (more : values ⊆ values') : tree.Stands values' id := by
  cases tree with
  | gap opcode => exact stands
  | node operand shape => exact Listed.mono stands more

/-- What a node shows depends on the node, on what feeds it, and on a table that may grow. -/
theorem Graph.Dressed.mono (dressed : g.Dressed values id label unmodeled parts)
    (more : values ⊆ values') (nodes : g'.node? id = g.node? id)
    (sources : ∀ pin, g'.dataSources id pin = g.dataSources id pin) :
    g'.Dressed values' id label unmodeled parts where
  node := nodes.trans dressed.node
  fed pin tree member := by
    obtain ⟨source, only, stands⟩ := dressed.fed pin tree member
    exact ⟨source, (sources pin).trans only, stands.mono more⟩
  bare pin absent := (sources pin).trans (dressed.bare pin absent)

/-- The agreement concerns the finished values only: it survives any change that keeps them, adds
no values, and leads no edge outside. -/
theorem Shares.transfer (shared : Shares mode isOpen g values)
    (kept : ∀ e id, (e, id) ∈ values → ¬ isOpen id →
      g'.node? id = g.node? id ∧ ∀ pin, g'.dataSources id pin = g.dataSources id pin)
    (kinds : ∀ id, (∃ node, g'.node? id = some node ∧ node.kind = .value) ↔
      ∃ node, g.node? id = some node ∧ node.kind = .value)
    (inside : ∀ edge ∈ g'.edges, edge.kind = .data → edge.target < g'.nextId) :
    Shares mode isOpen g' values where
  known := shared.known
  distinct := shared.distinct
  single := shared.single
  listed e id entry := (kinds id).mpr (shared.listed e id entry)
  complete id node found kind := by
    obtain ⟨old, oldFound, oldKind⟩ := (kinds id).mp ⟨node, found, kind⟩
    exact shared.complete id old oldFound oldKind
  inside := inside
  wired e id entry closed := by
    obtain ⟨shape, tree, dressed⟩ := shared.wired e id entry closed
    obtain ⟨node, sources⟩ := kept e id entry closed
    exact ⟨shape, tree, dressed.mono (List.Subset.refl _) node sources⟩

/-- A node that is no value is not in the table. -/
theorem Shares.aside (shared : Shares mode isOpen g values) {node : Node}
    (found : g.node? id = some node) (kind : node.kind ≠ .value) (e : Expr String)
    (entry : (e, id) ∈ values) : isOpen id := by
  obtain ⟨listed, listedFound, listedKind⟩ := shared.listed e id entry
  rw [found] at listedFound
  cases listedFound
  exact absurd listedKind kind

/-- The agreement survives a change of one node that is open or no value. -/
theorem Shares.modifyNode (shared : Shares mode isOpen g values)
    (aside : ∀ e, (e, id) ∈ values → isOpen id) {change : Node → Node}
    (kind : ∀ node, (change node).kind = node.kind) :
    Shares mode isOpen (g.modifyNode id change) values := by
  refine shared.transfer (fun e other entry closed => ?_) (fun other => ?_) ?_
  · have different : other ≠ id := fun same => closed (same ▸ aside e (same ▸ entry))
    exact ⟨by simp [different], fun pin => Graph.dataSources_congr rfl other pin⟩
  · by_cases same : other = id
    · subst same
      cases found : g.node? other <;> simp [found, kind]
    · simp [same]
  · simpa using shared.inside

theorem Shares.addPin (shared : Shares mode isOpen g values)
    (aside : ∀ e, (e, id) ∈ values → isOpen id) (name : String) (direction : Direction)
    (kind : FlowKind) : Shares mode isOpen (g.addPin id name direction kind) values := by
  rw [Graph.addPin_eq_modifyNode]
  exact shared.modifyNode aside fun node => node.withPin_kind _

theorem Shares.connectData (shared : Shares mode isOpen g values)
    (aside : ∀ e, (e, id) ∈ values → isOpen id) (present : id < g.nextId) (value : NodeId)
    (pin : String) : Shares mode isOpen (g.connectData value id pin) values := by
  refine shared.transfer (fun e other entry closed => ⟨rfl, fun pin' => ?_⟩) (fun _ => Iff.rfl) ?_
  · have different : id ≠ other := fun same => closed (same ▸ aside e (same ▸ entry))
    simp [Graph.dataSources_connectData, different]
  · intro edge member kind
    simp only [Graph.connectData, Graph.addEdge, Array.mem_push] at member
    rcases member with member | rfl
    · exact shared.inside edge member kind
    · exact present

theorem Shares.diagnose (shared : Shares mode isOpen g values) (d : Diagnostic) :
    Shares mode isOpen (g.diagnose d) values :=
  shared.transfer (fun _ _ _ _ => ⟨rfl, fun _ => rfl⟩) (fun _ => Iff.rfl) shared.inside

theorem Shares.registerVariable (shared : Shares mode isOpen g values) (name : String)
    (node : NodeId) : Shares mode isOpen (g.registerVariable name node) values :=
  shared.transfer (fun _ _ _ _ => ⟨rfl, fun _ => rfl⟩) (fun _ => Iff.rfl) shared.inside

/-- The agreement survives a new node that is no value. -/
theorem Shares.addNode (shared : Shares mode isOpen g values) (label : String) {kind : NodeKind}
    (other : kind ≠ .value) : Shares mode isOpen (g.addNode label kind) values := by
  refine shared.transfer (fun e id entry _ => ?_) (fun id => ?_) fun edge member data => ?_
  · obtain ⟨node, found, _⟩ := shared.listed e id entry
    have different : id ≠ g.nextId := Nat.ne_of_lt (Graph.node?_lt found)
    exact ⟨by simp [different], fun pin => rfl⟩
  · by_cases same : id = g.nextId
    · subst same
      simp [other, Graph.node?_none_of_le (Nat.le_refl g.nextId)]
    · simp [same]
  · rw [Graph.nextId_addNode]
    exact Nat.lt_succ_of_lt (shared.inside edge member data)

/-- Nothing feeds a node that is not there yet. -/
theorem Shares.dataSources_nextId (shared : Shares mode isOpen g values) (pin : String) :
    g.dataSources g.nextId pin = [] :=
  Graph.dataSources_eq_nil (fun e member kind => Nat.ne_of_lt (shared.inside e member kind)) pin

/-- An empty graph and an empty table agree. -/
theorem Shares.empty (mode : GraphMode) (isOpen : NodeId → Prop) : Shares mode isOpen {} [] where
  known := by simp
  distinct := by simp
  single := by simp
  listed := by simp
  complete id node found := by simp [Graph.node?] at found
  inside := by simp
  wired := by simp

/-! ### Looking an operand up -/

/-- Among known operands the look-up always decides: it finds the node of the normal form, or the
normal form is new. -/
theorem findValue_of_known {operand : Expr String} (operandKnown : operand.known = true)
    (known : ∀ e id, (e, id) ∈ values → e.known = true) :
    (∃ id, findValue operand values = .ok (some id) ∧ Listed values operand id) ∨
      (findValue operand values = .ok none ∧ ∀ e id, (e, id) ∈ values → e.normal ≠ operand.normal) := by
  induction values with
  | nil => exact .inr ⟨rfl, by simp⟩
  | cons entry rest ih =>
    obtain ⟨seen, id⟩ := entry
    have seenKnown : seen.known = true := known seen id (by simp)
    have later := ih fun e id member => known e id (List.mem_cons_of_mem _ member)
    have decided := agrees_true_iff seen operand
    -- Operands in one bucket are compared; those in different ones have different normal forms.
    have skip (different : seen.normal ≠ operand.normal)
        (next : findValue operand ((seen, id) :: rest) = findValue operand rest) :
        (∃ id', findValue operand ((seen, id) :: rest) = .ok (some id') ∧
          Listed ((seen, id) :: rest) operand id') ∨
        (findValue operand ((seen, id) :: rest) = .ok none ∧
          ∀ e id', (e, id') ∈ (seen, id) :: rest → e.normal ≠ operand.normal) := by
      rw [next]
      refine later.imp (fun ⟨id', found, listed⟩ => ⟨id', found, listed.mono (by simp)⟩)
        fun ⟨found, others⟩ => ⟨found, fun e id' member => ?_⟩
      rcases List.mem_cons.mp member with same | member
      · cases same
        exact different
      · exact others e id' member
    by_cases tokens : seen.tokenName = operand.tokenName
    · have total := agrees_decides seen operand seenKnown operandKnown
      obtain ⟨verdict, holds⟩ := Option.isSome_iff_exists.mp total
      rw [toOption_eq_some] at holds
      cases verdict with
      | true =>
        refine .inl ⟨id, by simp [findValue, tokens, holds], seen, by simp, ?_⟩
        exact (decided.mp holds).2.2
      | false =>
        refine skip (fun same => ?_) (by simp [findValue, tokens, holds])
        rw [decided.mpr ⟨seenKnown, operandKnown, same⟩] at holds
        cases holds
    · refine skip (fun same => tokens ?_) (by simp [findValue, tokens])
      rw [← normal_tokenName seen, same, normal_tokenName]

/-! ### Opening, dressing and closing a node -/

@[simp] theorem openValue_values (b : Build) (operand : Expr String) :
    (b.openValue operand).values = b.values ++ [(operand, b.graph.nextId)] := rfl

theorem openValue_node? (b : Build) (operand : Expr String) (id : NodeId) :
    (b.openValue operand).graph.node? id =
      if id = b.graph.nextId then some
        { id := b.graph.nextId, label := operand.tokenName, kind := .value, pins := valuePins [] }
      else b.graph.node? id := by
  by_cases same : id = b.graph.nextId <;>
    simp [Build.openValue, Graph.addPin_eq_modifyNode, same, Node.withPin, Node.pin?,
      Node.pushPin, valuePins, inputNames]

theorem openValue_edges (b : Build) (operand : Expr String) :
    (b.openValue operand).graph.edges = b.graph.edges := by
  simp [Build.openValue]

/-- A node opened for a new normal form is the only one that does not agree with the table yet. -/
theorem Shares.openValue {b : Build} (shared : Shares mode isOpen b.graph b.values)
    {operand : Expr String} (known : operand.known = true)
    (fresh : ∀ e id, (e, id) ∈ b.values → e.normal ≠ operand.normal) :
    Shares mode (fun id => isOpen id ∨ id = b.graph.nextId) (b.openValue operand).graph
      (b.openValue operand).values := by
  have earlier (e : Expr String) (id : NodeId) (entry : (e, id) ∈ b.values) :
      id ≠ b.graph.nextId := by
    obtain ⟨node, found, _⟩ := shared.listed e id entry
    exact Nat.ne_of_lt (Graph.node?_lt found)
  have grown : (b.openValue operand).graph.nextId = b.graph.nextId + 1 := by
    simp [Build.openValue]
  refine ⟨?_, ?_, ?_, ?_, ?_, ?_, ?_⟩
  · intro e id entry
    rcases List.mem_append.mp entry with entry | entry
    · exact shared.known e id entry
    · cases List.mem_singleton.mp entry
      exact known
  · rw [openValue_values, List.map_append, List.nodup_append]
    refine ⟨shared.distinct, by simp, ?_⟩
    rintro _ member _ last same
    obtain ⟨⟨e, id⟩, entry, rfl⟩ := List.mem_map.mp member
    exact fresh e id entry (same.trans (List.mem_singleton.mp last))
  · rw [openValue_values, List.map_append, List.nodup_append]
    refine ⟨shared.single, by simp, ?_⟩
    rintro _ member _ last same
    obtain ⟨⟨e, id⟩, entry, rfl⟩ := List.mem_map.mp member
    exact earlier e id entry (same.trans (List.mem_singleton.mp last))
  · intro e id entry
    rw [openValue_node?]
    rcases List.mem_append.mp entry with entry | entry
    · rw [if_neg (earlier e id entry)]
      exact shared.listed e id entry
    · cases List.mem_singleton.mp entry
      exact ⟨_, if_pos rfl, rfl⟩
  · intro id node found kind
    rw [openValue_node?] at found
    split at found
    · rename_i same
      exact ⟨operand, by simp [same]⟩
    · obtain ⟨e, entry⟩ := shared.complete id node found kind
      exact ⟨e, List.mem_append_left _ entry⟩
  · intro edge member kind
    rw [openValue_edges] at member
    rw [grown]
    exact Nat.lt_succ_of_lt (shared.inside edge member kind)
  · intro e id entry closed
    rw [not_or] at closed
    rcases List.mem_append.mp entry with entry | entry
    · obtain ⟨shape, tree, dressed⟩ := shared.wired e id entry closed.1
      refine ⟨shape, tree, dressed.mono (List.subset_append_left _ _) ?_ fun pin => ?_⟩
      · rw [openValue_node?, if_neg closed.2]
      · exact Graph.dataSources_congr (openValue_edges b operand) id pin
    · cases List.mem_singleton.mp entry
      exact absurd rfl closed.2

/-- A new node shows nothing yet. -/
private theorem openValue_dressed {b : Build} (shared : Shares mode isOpen b.graph b.values)
    (operand : Expr String) : (b.openValue operand).graph.Dressed (b.openValue operand).values
      b.graph.nextId operand.tokenName false [] where
  node := by rw [openValue_node?, if_pos rfl]; rfl
  fed pin tree member := by simp at member
  bare pin _ := by
    rw [Graph.dataSources_congr (openValue_edges b operand)]
    exact shared.dataSources_nextId pin

/-- The pin of a new input is the last one of the node. -/
private theorem withPin_input {done : List (ValuePart ValueTree)} {pin : String}
    (fresh : pin ∉ inputNames done) (tree : ValueTree) :
    ({ id, label, kind := .value, pins := valuePins done, annotations := notesOf done,
        unmodeled } : Node).withPin ⟨pin, .input, .data⟩ =
      { id, label, kind := .value, pins := valuePins (done ++ [.operand pin tree]),
        annotations := notesOf (done ++ [.operand pin tree]), unmodeled } := by
  have absent : (valuePins done).find? (fun p => p.name = pin ∧ p.direction = .input) = none := by
    simp only [valuePins, List.find?_eq_none, List.mem_cons, List.mem_map, decide_eq_true_eq]
    rintro p (rfl | ⟨name, member, rfl⟩)
    · simp
    · rintro ⟨rfl, _⟩
      exact fresh member
  have pins : valuePins (done ++ [.operand pin tree]) =
      valuePins done ++ [⟨pin, .input, .data⟩] := by
    simp [valuePins, inputNames]
  rw [pins, notesOf_append, Node.withPin, Node.pin?, absent]
  simp [Node.pushPin]

/-- A line of text goes to the end of the lines of a node. -/
theorem Graph.Dressed.annotate (dressed : g.Dressed values id label unmodeled parts)
    (line : String) :
    (g.annotate id line).Dressed values id label unmodeled (parts ++ [.note line]) where
  node := by
    simp [Graph.annotate, dressed.node, valuePins, inputNames]
  fed pin tree member := dressed.fed pin tree (by simpa using member)
  bare pin absent := dressed.bare pin (by simpa [inputNames] using absent)

/-- An entry in the index of variables does not show on the node. -/
theorem Graph.Dressed.registerVariable (dressed : g.Dressed values id label unmodeled parts)
    (name : String) : (g.registerVariable name id).Dressed values id label unmodeled
      (parts ++ [.variableRead name]) where
  node := by
    simp [dressed.node, valuePins, inputNames]
  fed pin tree member := dressed.fed pin tree (by simpa using member)
  bare pin absent := dressed.bare pin (by simpa [inputNames] using absent)

/-- An operand that a tree is made of: its own, or one that its inputs are made of. -/
inductive ValueTree.Reaches : ValueTree → Expr String → Prop
  | own {operand : Expr String} {shape : ValueShape ValueTree} :
    (ValueTree.node operand shape).Reaches operand
  | input {operand e : Expr String} {shape : ValueShape ValueTree} {pin : String}
    {tree : ValueTree} : ValuePart.operand pin tree ∈ shape.parts → tree.Reaches e →
    (ValueTree.node operand shape).Reaches e

/-- What placing a tree achieves: it succeeds, its operand is listed, the table keeps agreeing with
the graph, and only operands of the tree are new in it. -/
def ValueTree.Places (mode : GraphMode) (isOpen : NodeId → Prop) (tree : ValueTree) (b : Build) :
    Prop :=
  ∃ id after, tree.place b = (.ok id, after) ∧ Shares mode isOpen after.graph after.values ∧
    tree.Stands after.values id ∧
    ∀ e other, (e, other) ∈ after.values → (e, other) ∈ b.values ∨ tree.Reaches e

/-- An input that is placed and connected is fed by the one value that stands for it. -/
private theorem dressed_input {b after : Build} {pin : String} {tree : ValueTree} {value : NodeId}
    (dressed : b.graph.Dressed b.values id label unmodeled parts)
    (fresh : pin ∉ inputNames parts)
    (kept : (b.onGraph (·.addPin id pin .input .data)).Keeps after)
    (stands : tree.Stands after.values value) :
    (after.graph.connectData value id pin).Dressed after.values id label unmodeled
      (parts ++ [.operand pin tree]) := by
  have present : id < (b.onGraph (·.addPin id pin .input .data)).graph.nextId := by
    simpa using Graph.node?_lt dressed.node
  have sources (name : String) :
      after.graph.dataSources id name = b.graph.dataSources id name := by
    rw [kept.dataSources present]
    exact Graph.dataSources_congr (by simp) id name
  have more : b.values ⊆ after.values := kept.values.subset
  refine ⟨?_, ?_, ?_⟩
  · rw [Graph.connectData, Graph.node?_addEdge, kept.nodes id present]
    simp only [Build.onGraph_graph, Graph.addPin_eq_modifyNode, Graph.node?_modifyNode, ↓reduceIte,
      dressed.node, Option.map_some, withPin_input fresh tree]
  · intro name other member
    rw [Graph.dataSources_connectData, sources]
    rcases List.mem_append.mp member with member | member
    · have different : pin ≠ name := by
        rintro rfl
        exact fresh (List.mem_map_of_mem (mem_inputsOf.mpr member))
      obtain ⟨source, only, standing⟩ := dressed.fed name other member
      exact ⟨source, by simp [only, different], standing.mono more⟩
    · cases List.mem_singleton.mp member
      exact ⟨value, by simp [dressed.bare pin fresh], stands⟩
  · intro name absent
    have names : inputNames (parts ++ [.operand pin tree]) = inputNames parts ++ [pin] := by
      simp [inputNames]
    rw [names, List.mem_append, not_or] at absent
    have different : pin ≠ name := fun same => absent.2 (by simp [same])
    rw [Graph.dataSources_connectData, sources, dressed.bare name absent.1]
    simp [different]

/-- What giving an open node some parts achieves: the table keeps agreeing with the graph, the node
shows these parts after those it had, and only operands of these parts are new. -/
private structure Gives (mode : GraphMode) (isOpen : NodeId → Prop) (id : NodeId) (label : String)
    (b : Build) (had given : List (ValuePart ValueTree)) (after : Build) : Prop where
  shares : Shares mode isOpen after.graph after.values
  dressed : after.graph.Dressed after.values id label false (had ++ given)
  more : b.values ⊆ after.values
  grown : ∀ e other, (e, other) ∈ after.values → (e, other) ∈ b.values ∨
    ∃ pin tree, ValuePart.operand pin tree ∈ given ∧ tree.Reaches e

private theorem Gives.trans {b next after : Build} {had first second : List (ValuePart ValueTree)}
    (one : Gives mode isOpen id label b had first next)
    (two : Gives mode isOpen id label next (had ++ first) second after) :
    Gives mode isOpen id label b had (first ++ second) after where
  shares := two.shares
  dressed := List.append_assoc had first second ▸ two.dressed
  more := List.Subset.trans one.more two.more
  grown e other member := by
    rcases two.grown e other member with member | ⟨pin, tree, given, reached⟩
    · refine (one.grown e other member).imp_right ?_
      rintro ⟨pin, tree, given, reached⟩
      exact ⟨pin, tree, List.mem_append_left _ given, reached⟩
    · exact .inr ⟨pin, tree, List.mem_append_right _ given, reached⟩

/-- Giving an open node one more part leaves it showing that part, too. -/
private theorem placePart_gives (part : ValuePart ValueTree) {had : List (ValuePart ValueTree)}
    {b : Build} (whole : ∀ opcode, part ≠ .gap opcode)
    (fresh : ∀ pin tree, part = .operand pin tree → pin ∉ inputNames had)
    (feeds : ∀ pin tree, part = .operand pin tree →
      ∀ b, Shares mode isOpen b.graph b.values → tree.Places mode isOpen b)
    (opened : isOpen id) (shared : Shares mode isOpen b.graph b.values)
    (dressed : b.graph.Dressed b.values id label false had) :
    ∃ next, (∀ rest, placeParts id (part :: rest) b = placeParts id rest next) ∧
      Gives mode isOpen id label b had [part] next := by
  have aside : ∀ e, (e, id) ∈ b.values → isOpen id := fun _ _ => opened
  cases part with
  | operand pin tree =>
    obtain ⟨value, after, placed, sharedAfter, stands, grown⟩ :=
      feeds pin tree rfl (b.onGraph (·.addPin id pin .input .data))
        (shared.addPin aside pin .input .data)
    have kept : (b.onGraph (·.addPin id pin .input .data)).Keeps after := by
      have keeps := Build.place_keeps tree (b.onGraph (·.addPin id pin .input .data)) (.refl _)
      rwa [placed] at keeps
    have dressedAfter := dressed_input dressed (fresh pin tree rfl) kept stands
    have present := Graph.node?_lt dressedAfter.node
    refine ⟨after.onGraph (·.connectData value id pin), fun rest => by rw [placeParts, placed],
      sharedAfter.connectData (fun _ _ => opened) present value pin, dressedAfter,
      kept.values.subset, fun e other member => ?_⟩
    exact (grown e other member).imp_right fun reached => ⟨pin, tree, by simp, reached⟩
  | note line =>
    exact ⟨b.onGraph (·.annotate id line), fun _ => rfl, shared.modifyNode aside fun _ => rfl,
      dressed.annotate line, List.Subset.refl _, fun _ _ => .inl⟩
  | variableRead name =>
    exact ⟨b.onGraph (·.registerVariable name id), fun _ => rfl, shared.registerVariable name id,
      dressed.registerVariable name, List.Subset.refl _, fun _ _ => .inl⟩
  | gap opcode => exact absurd rfl (whole opcode)

/-- Giving an open node its parts, one after the other, leaves it showing all of them. -/
private theorem placeParts_gives (parts had : List (ValuePart ValueTree)) (b : Build)
    (whole : ∀ opcode, ValuePart.gap opcode ∉ parts)
    (distinct : (inputNames (had ++ parts)).Nodup)
    (feeds : ∀ pin tree, ValuePart.operand pin tree ∈ parts →
      ∀ b, Shares mode isOpen b.graph b.values → tree.Places mode isOpen b)
    (opened : isOpen id) (shared : Shares mode isOpen b.graph b.values)
    (dressed : b.graph.Dressed b.values id label false had) :
    ∃ after, placeParts id parts b = (.ok (), after) ∧
      Gives mode isOpen id label b had parts after := by
  induction parts generalizing had b with
  | nil =>
    exact ⟨b, rfl, shared, by simpa using dressed, List.Subset.refl _, fun _ _ => .inl⟩
  | cons part rest ih =>
    have fresh (pin : String) (tree : ValueTree) (same : part = .operand pin tree) :
        pin ∉ inputNames had := by
      have split : inputNames (had ++ part :: rest) =
          inputNames had ++ pin :: inputNames rest := by simp [inputNames, same]
      rw [split, List.nodup_append] at distinct
      exact fun member => distinct.2.2 pin member pin (by simp) rfl
    obtain ⟨next, step, gives⟩ := placePart_gives part
      (fun opcode same => whole opcode (by simp [same])) fresh
      (fun pin tree same => feeds pin tree (by simp [same])) opened shared dressed
    have shifted : had ++ part :: rest = (had ++ [part]) ++ rest := by simp
    obtain ⟨after, run, later⟩ := ih (had ++ [part]) next
      (fun opcode member => whole opcode (List.mem_cons_of_mem _ member)) (shifted ▸ distinct)
      (fun pin tree member => feeds pin tree (List.mem_cons_of_mem _ member)) gives.shares
      gives.dressed
    exact ⟨after, (step rest).trans run, gives.trans later⟩

/-- A node that shows what its operand says need not count as open any more. -/
theorem Shares.close {operand : Expr String}
    (shared : Shares mode (fun other => isOpen other ∨ other = id) g values)
    (entry : (operand, id) ∈ values) (wired : g.Wired mode values operand id) :
    Shares mode isOpen g values where
  known := shared.known
  distinct := shared.distinct
  single := shared.single
  listed := shared.listed
  complete := shared.complete
  inside := shared.inside
  wired e other member closed := by
    by_cases same : other = id
    · subst same
      have sameEntry := List.inj_on_of_nodup_map shared.single member entry rfl
      cases sameEntry
      exact wired
    · exact shared.wired e other member (by simp [closed, same])

/-- Titling a node, or marking it as untitled, is the last change it sees. -/
private theorem closeValue_dressed {b : Build} (title : Option String) (token : String)
    (dressed : b.graph.Dressed b.values id label false parts) :
    (b.closeValue id title token).graph.Dressed (b.closeValue id title token).values id
      (title.getD label) title.isNone parts := by
  cases title with
  | some title =>
    refine ⟨?_, dressed.fed, dressed.bare⟩
    simp [Build.closeValue, Graph.relabel, dressed.node]
  | none =>
    refine ⟨?_, dressed.fed, dressed.bare⟩
    simp [Build.closeValue, Graph.markUnmodeled, dressed.node]

private theorem closeValue_shares {b : Build} (title : Option String) (token : String)
    (opened : isOpen id) (shared : Shares mode isOpen b.graph b.values) :
    Shares mode isOpen (b.closeValue id title token).graph (b.closeValue id title token).values := by
  cases title with
  | some title => exact shared.modifyNode (fun _ _ => opened) fun _ => rfl
  | none =>
    have marked : Shares mode isOpen (b.graph.markUnmodeled id) b.values :=
      shared.modifyNode (fun _ _ => opened) fun _ => rfl
    exact marked.diagnose _

/-- The value node of a known operand can always be placed, whatever values there are already and
whichever of them are still open. -/
theorem valueTree_places {e : Expr String} (known : e.known = true) (isOpen : NodeId → Prop)
    (b : Build) (shared : Shares mode isOpen b.graph b.values) :
    (e.valueTree mode).Places mode isOpen b := by
  generalize same : e.valueTree mode = tree
  induction tree generalizing e isOpen b with
  | gap opcode =>
    obtain ⟨shape, own, _⟩ := valueTree_of_known mode known
    rw [own] at same
    cases same
  | node operand title token parts ih =>
    obtain ⟨shape, own, sound⟩ := valueTree_of_known mode known
    rw [own] at same
    cases same
    rcases findValue_of_known known shared.known with ⟨id, found, listed⟩ | ⟨found, fresh⟩
    · exact ⟨id, b, by rw [ValueTree.place, found], shared, listed, fun _ _ => .inl⟩
    · have feeds (pin : String) (tree : ValueTree) (member : ValuePart.operand pin tree ∈ parts)
          (b' : Build) (shared' : Shares mode (fun other => isOpen other ∨ other = b.graph.nextId)
            b'.graph b'.values) :
          tree.Places mode (fun other => isOpen other ∨ other = b.graph.nextId) b' := by
        obtain ⟨feeding, feedingKnown, rfl⟩ := sound.fed pin tree member
        exact ih pin _ member feedingKnown _ b' shared' rfl
      obtain ⟨after, run, sharedAfter, dressedAfter, more, grown⟩ :=
        placeParts_gives parts [] (b.openValue operand) sound.whole sound.distinct feeds
          (.inr rfl) (shared.openValue known fresh) (openValue_dressed shared operand)
      have entered : (operand, b.graph.nextId) ∈ after.values := more (by simp)
      have wired := closeValue_dressed title token dressedAfter
      have sharedClosed := closeValue_shares title token (.inr rfl) sharedAfter
      have values := after.closeValue_values b.graph.nextId title token
      refine ⟨b.graph.nextId, after.closeValue b.graph.nextId title token, ?_, ?_, ?_, ?_⟩
      · rw [ValueTree.place, found]
        simp only [run]
      · exact sharedClosed.close (values ▸ entered) ⟨⟨title, token, parts⟩, own, wired⟩
      · exact ⟨operand, values ▸ entered, rfl⟩
      · intro e other member
        rw [values] at member
        rcases grown e other member with member | ⟨pin, tree, fed, reached⟩
        · rcases List.mem_append.mp member with member | member
          · exact .inl member
          · cases List.mem_singleton.mp member
            exact .inr .own
        · exact .inr (.input fed reached)

end ScriptFlow
