import ScriptFlow.Proofs.Flow.Exactness

/-! Every graph is well formed. Connecting two pins checks neither of them, so that edges attach to
pins that exist, and each input to one edge, is a matter of the construction as a whole: a node has
the pins of its parts, its inputs are fed by the values of these parts and by nothing else, and its
outputs are those that it owes jumps for. -/
namespace ScriptFlow

/-- The node with an id is a value. -/
def Graph.IsValue (g : Graph) (id : NodeId) : Prop :=
  ∃ node, g.node? id = some node ∧ node.kind = .value

/-- The node has the pins that nodes of its kind have. -/
def Node.HasPins (node : Node) : Prop :=
  match node.kind with
  | .value => node.outputs = [⟨resultPin, .output, .data⟩] ∧ ∀ pin ∈ node.inputs, pin.kind = .data
  | .entry => node.pins = [⟨thenPin, .output, .execution⟩]
  | .instruction _ => ⟨executePin, .input, .execution⟩ ∈ node.pins

/-- Nodes have the pins of their kind, edges attach to pins that exist, and every data input is fed
once. -/
structure Graph.WellFormed (g : Graph) : Prop where
  ids : ∀ id node, g.node? id = some node → node.id = id
  /-- A pin is told by its name and direction. -/
  distinct : ∀ id node, g.node? id = some node →
    (node.pins.map fun pin => (pin.name, pin.direction)).Nodup
  pins : ∀ id node, g.node? id = some node → node.HasPins
  /-- Instructions have their nodes in the order of their offsets. -/
  increasing : ∀ id id' offset offset', g.IsInstruction id offset → g.IsInstruction id' offset' →
    id < id' → offset < offset'
  /-- Execution leaves an execution output and enters an instruction. -/
  execution : ∀ edge ∈ g.edges, edge.kind = .execution →
    (∃ source, g.node? edge.source = some source ∧ source.kind ≠ .value ∧
      ⟨edge.sourcePin, .output, .execution⟩ ∈ source.pins) ∧
    edge.targetPin = executePin ∧ ∃ offset, g.IsInstruction edge.target offset
  /-- Execution leaves an output along one edge at most. -/
  single : ((g.edges.toList.filter (·.kind = .execution)).map
    fun edge => (edge.source, edge.sourcePin)).Nodup
  /-- Data leaves the result of a value and enters a data input of a value or an instruction. -/
  data : ∀ edge ∈ g.edges, edge.kind = .data →
    edge.sourcePin = resultPin ∧ g.IsValue edge.source ∧
      ∃ target, g.node? edge.target = some target ∧ target.kind ≠ .entry ∧
        ⟨edge.targetPin, .input, .data⟩ ∈ target.pins
  /-- Each data input is fed by one edge. -/
  fed : ∀ id node pin, g.node? id = some node → ⟨pin, .input, .data⟩ ∈ node.pins →
    ∃ source, g.dataSources id pin = [source]

/-! ### Pins -/

private theorem execPins_distinct (parts : List ExecPart) :
    ((execPins parts).map fun pin => (pin.name, pin.direction)).Nodup := by
  induction parts using List.reverseRecOn with
  | nil => exact .nil
  | append_singleton parts part ih =>
    rw [execPins_append, pinsWith]
    split
    · exact ih
    · rename_i pin _
      by_cases present : hasPin (execPins parts) pin = true
      · rwa [if_pos present]
      · rw [if_neg present, List.map_append, List.nodup_append]
        refine ⟨ih, by simp, ?_⟩
        rintro place member _ last rfl
        rw [List.map_singleton, List.mem_singleton] at last
        obtain ⟨other, otherMember, same⟩ := List.mem_map.mp member
        rw [last, Prod.mk.injEq] at same
        apply present
        rw [hasPin, List.any_eq_true]
        exact ⟨other, otherMember, by simpa using same⟩

/-- Pins stay while further parts are given. -/
private theorem subset_foldl_pinsWith (parts : List ExecPart) (pins : List Pin) :
    pins ⊆ parts.foldl pinsWith pins := by
  induction parts generalizing pins with
  | nil => exact List.Subset.refl _
  | cons part rest ih =>
    have step : pins ⊆ pinsWith pins part := by
      unfold pinsWith
      split
      · exact List.Subset.refl _
      · split
        · exact List.Subset.refl _
        · exact List.subset_append_left _ _
    exact List.Subset.trans step (ih _)

private theorem execShape_enters (settings : DecodeSettings) (e : Expr String) :
    ∃ rest, (e.execShape settings).parts = .enter :: rest := by
  unfold Expr.execShape
  split <;> exact ⟨_, rfl⟩

/-- Every instruction is entered. -/
private theorem execute_mem_execPins (settings : DecodeSettings) (e : Expr String) :
    ⟨executePin, .input, .execution⟩ ∈ execPins (e.execParts settings) := by
  have first : ∃ rest, e.execParts settings = .enter :: rest := by
    rcases execParts_cases settings e with same | ⟨_, _, _, _, _, _, same⟩
    · rw [same]
      exact execShape_enters settings e
    · exact ⟨_, same⟩
  obtain ⟨rest, same⟩ := first
  rw [same]
  exact subset_foldl_pinsWith rest [⟨executePin, .input, .execution⟩] (List.mem_singleton_self _)

private theorem valuePins_distinct {parts : List (ValuePart ValueTree)}
    (distinct : (inputNames parts).Nodup) :
    ((valuePins parts).map fun pin => (pin.name, pin.direction)).Nodup := by
  have inputs : ((inputNames parts).map fun name => (name, Direction.input)).Nodup :=
    distinct.map fun _ _ => congrArg Prod.fst
  rw [valuePins, List.map_cons, List.map_map, List.nodup_cons]
  exact ⟨by simp, inputs⟩

private theorem valuePins_hasPins {node : Node} {parts : List (ValuePart ValueTree)}
    (kind : node.kind = .value) (pins : node.pins = valuePins parts) : node.HasPins := by
  unfold Node.HasPins
  rw [kind]
  constructor
  · simp [Node.outputs, Node.pinsFacing, pins, valuePins]
  · intro pin member
    rw [Node.inputs, Node.pinsFacing, pins, List.mem_filter] at member
    obtain ⟨listed, faces⟩ := member
    rcases List.mem_cons.mp listed with rfl | listed
    · cases faces
    · obtain ⟨name, _, rfl⟩ := List.mem_map.mp listed
      rfl

/-! ### Nodes -/

variable {settings : DecodeSettings} {stream : List (Expr String)} {entries : List Entry}
  {kept : List Kept} {pairs : List (Nat × Nat)} {b : Build} {g : Graph} {id : NodeId} {node : Node}

namespace Build.Finished

/-- A value shows the parts of a known operand. -/
theorem dressed (finished : b.Finished settings (fun _ => False) stream entries kept pairs g)
    (found : g.node? id = some node) (kind : node.kind = .value) :
    ∃ label unmodeled parts, (inputNames parts).Nodup ∧
      g.Dressed b.values id label unmodeled parts := by
  have shares := finished.records.shares
  obtain ⟨e, entry⟩ := shares.complete id node (finished.node?_eq id ▸ found) kind
  obtain ⟨shape, tree, dressed⟩ := shares.wired e id entry not_false
  obtain ⟨own, ownTree, sound⟩ := valueTree_of_known settings.mode (shares.known e id entry)
  rw [tree] at ownTree
  cases ownTree
  exact ⟨_, _, shape.parts, sound.distinct,
    dressed.mono (List.Subset.refl _) (finished.node?_eq id) (finished.connected.sources id)⟩

theorem isValue_of_listed
    (finished : b.Finished settings (fun _ => False) stream entries kept pairs g)
    {e : Expr String} (listed : Listed b.values e id) : g.IsValue id := by
  obtain ⟨found, isFound, kind⟩ := finished.records.shares.listed_node listed
  exact ⟨found, (finished.node?_eq id).trans isFound, kind⟩

private theorem isValue_of_stands
    (finished : b.Finished settings (fun _ => False) stream entries kept pairs g)
    {tree : ValueTree} (stands : tree.Stands b.values id) : g.IsValue id := by
  cases tree with
  | gap opcode => exact stands.elim
  | node operand shape => exact finished.isValue_of_listed stands

/-- Every node is made for its place, with pins that can be told apart. -/
theorem node_sound (finished : b.Finished settings (fun _ => False) stream entries kept pairs g)
    (found : g.node? id = some node) :
    node.id = id ∧ (node.pins.map fun pin => (pin.name, pin.direction)).Nodup ∧ node.HasPins := by
  by_cases value : node.kind = .value
  · obtain ⟨label, unmodeled, parts, distinct, dressed⟩ := finished.dressed found value
    have shown := dressed.node
    rw [found, Option.some.injEq] at shown
    have pins : node.pins = valuePins parts := by rw [shown]
    refine ⟨by rw [shown], ?_, valuePins_hasPins value pins⟩
    rw [pins]
    exact valuePins_distinct distinct
  · rcases finished.recorded found value with ⟨entry, _, rfl, rfl⟩ | ⟨k, member, rfl, kind, pins⟩
    · exact ⟨rfl, by simp [Entry.shown], rfl⟩
    · have shown := (finished.equipped member).2.node
      rw [found, Option.some.injEq] at shown
      refine ⟨by rw [shown], ?_, ?_⟩
      · rw [pins]
        exact execPins_distinct _
      · unfold Node.HasPins
        rw [kind, pins]
        exact execute_mem_execPins settings _

/-- A data input is fed by one value, and nothing else is fed. -/
theorem input_or_bare (finished : b.Finished settings (fun _ => False) stream entries kept pairs g)
    (found : g.node? id = some node) (pin : String) :
    (⟨pin, .input, .data⟩ ∈ node.pins ∧
        ∃ source, g.dataSources id pin = [source] ∧ g.IsValue source) ∨
      ⟨pin, .input, .data⟩ ∉ node.pins ∧ g.dataSources id pin = [] := by
  by_cases value : node.kind = .value
  · obtain ⟨label, unmodeled, parts, _, dressed⟩ := finished.dressed found value
    have shown := dressed.node
    rw [found, Option.some.injEq] at shown
    have asked : ⟨pin, .input, .data⟩ ∈ node.pins ↔ pin ∈ inputNames parts := by
      simp [shown, valuePins]
    rw [asked]
    by_cases named : pin ∈ inputNames parts
    · obtain ⟨⟨_, tree⟩, member, rfl⟩ := List.mem_map.mp named
      obtain ⟨source, only, stands⟩ := dressed.fed _ tree (mem_inputsOf.mp member)
      exact .inl ⟨named, source, only, finished.isValue_of_stands stands⟩
    · exact .inr ⟨named, dressed.bare pin named⟩
  · rcases finished.recorded found value with ⟨entry, member, rfl, rfl⟩ | ⟨k, member, rfl, _, pins⟩
    · refine .inr ⟨by simp [Entry.shown], ?_⟩
      rw [finished.connected.sources]
      refine Graph.dataSources_eq_nil (fun edge edgeMember _ target => ?_) pin
      apply (finished.records.carries edge edgeMember).2
      rw [target]
      exact List.mem_map_of_mem member
    · obtain ⟨sound, presented⟩ := finished.equipped member
      have inputs := execPins_inputs sound.distinct sound.free
      have asked : ⟨pin, .input, .data⟩ ∈ node.pins ↔ pin ∈ supplyNames (k.parts settings) := by
        have filtered : (⟨pin, .input, .data⟩ : Pin) ∈ (execPins (k.parts settings)).filter
            (fun pin => pin.direction = .input ∧ pin.kind = .data) ↔
              ⟨pin, .input, .data⟩ ∈ node.pins := by
          simp [pins]
        rw [← filtered, inputs]
        simp
      rw [asked]
      by_cases named : pin ∈ supplyNames (k.parts settings)
      · obtain ⟨⟨_, operand⟩, supplied, rfl⟩ := List.mem_map.mp named
        obtain ⟨source, only, listed⟩ := presented.fed _ operand (mem_suppliesOf.mp supplied)
        exact .inl ⟨named, source, only, finished.isValue_of_listed listed⟩
      · exact .inr ⟨named, presented.bare pin named⟩

/-- Instructions have their nodes in the order in which they stand. -/
theorem offsets_increasing
    (finished : b.Finished settings (fun _ => False) stream entries kept pairs g)
    {k k' : Kept} (member : k ∈ kept) (member' : k' ∈ kept) (earlier : k.node < k'.node) :
    k.instruction.offset < k'.instruction.offset := by
  have nodes := List.pairwise_map.mp (List.pairwise_append.mp finished.records.ordered).2.1
  have offsets : kept.Pairwise fun k k' => k.instruction.offset < k'.instruction.offset := by
    have standing := (instructionsFrom_increasing finished.known 0 0).sublist
      finished.sifts.kept_sublist
    exact (List.pairwise_map.mp standing).imp And.right
  obtain ⟨i, iBound, rfl⟩ := List.mem_iff_getElem.mp member
  obtain ⟨j, jBound, rfl⟩ := List.mem_iff_getElem.mp member'
  -- The node and the offset both grow along the list, so the order of the nodes tells the places.
  rcases Nat.lt_trichotomy i j with before | same | after
  · exact List.pairwise_iff_getElem.mp offsets i j iBound jBound before
  · subst same
    exact absurd earlier (Nat.lt_irrefl _)
  · have later := List.pairwise_iff_getElem.mp nodes j i jBound iBound after
    exact absurd earlier (Nat.lt_asymm later)

end Build.Finished

/-! ### Edges -/

namespace Build.Records

variable {isOpen : NodeId → Prop} (offsets : OffsetTable)

/-- The execution edges of a resolved build are those of the jumps that land. -/
theorem execution_edges (records : b.Records settings isOpen entries kept pairs) :
    (b.jumps.resolve offsets b.nodeAt? b.graph).1.edges.toList.filter (·.kind = .execution) =
      (owedBy settings entries kept).filterMap (b.jumps.edge? offsets b.nodeAt?) := by
  obtain ⟨_, edges, _⟩ := b.jumps.resolve_changes offsets b.nodeAt? records.flowless
    records.obligations_nodup
  have before : b.graph.edges.toList.filter (·.kind = .execution) = [] := by
    rw [List.filter_eq_nil_iff]
    intro edge member execution
    exact records.flowless edge (Array.mem_toList_iff.mp member) (by simpa using execution)
  have queued : b.jumps.obligations.filterMap (b.jumps.edge? offsets b.nodeAt?) =
      (owedBy settings entries kept).filterMap (b.jumps.edge? offsets b.nodeAt?) := by
    rw [records.accounts.obligations, List.filterMap_map]
    exact List.filterMap_congr fun o _ =>
      JumpTable.edge?_canonical offsets b.nodeAt? records.accounts.flat o
  rw [edges, queued, List.filter_append, before, List.nil_append, List.filter_eq_self]
  intro edge member
  obtain ⟨o, _, landed⟩ := List.mem_filterMap.mp member
  simpa using (JumpTable.edge?_eq_some landed).1

/-- No output has two edges. -/
theorem execution_edges_nodup (records : b.Records settings isOpen entries kept pairs) :
    (((b.jumps.resolve offsets b.nodeAt? b.graph).1.edges.toList.filter
      (·.kind = .execution)).map fun edge => (edge.source, edge.sourcePin)).Nodup := by
  rw [records.execution_edges, List.Nodup, List.pairwise_map, List.pairwise_filterMap]
  have distinct : ((owedBy settings entries kept).map fun o => (o.source, o.pin)).Nodup :=
    owedBy_nodup records.distinct
  refine (List.pairwise_map.mp distinct).imp fun {o o'} different edge landed edge' landed' same => ?_
  obtain ⟨_, source, pin, _⟩ := JumpTable.edge?_eq_some landed
  obtain ⟨_, source', pin', _⟩ := JumpTable.edge?_eq_some landed'
  apply different
  rw [← source, ← pin, ← source', ← pin', same]

/-- Every execution edge is the one of a jump that is owed. -/
private theorem owed_of_execution (records : b.Records settings isOpen entries kept pairs)
    {edge : Edge}
    (member : edge ∈ (b.jumps.resolve offsets b.nodeAt? b.graph).1.edges)
    (execution : edge.kind = .execution) :
    ∃ o ∈ owedBy settings entries kept, o.source = edge.source ∧ o.pin = edge.sourcePin := by
  have listed : edge ∈
      (owedBy settings entries kept).filterMap (b.jumps.edge? offsets b.nodeAt?) := by
    rw [← records.execution_edges, List.mem_filter]
    exact ⟨Array.mem_toList_iff.mpr member, by simpa using execution⟩
  obtain ⟨o, owed, landed⟩ := List.mem_filterMap.mp listed
  obtain ⟨_, source, pin, _⟩ := JumpTable.edge?_eq_some landed
  exact ⟨o, owed, source.symm, pin.symm⟩

/-- The data edges of a resolved build were there before. -/
theorem data_edge (records : b.Records settings isOpen entries kept pairs) {edge : Edge}
    (member : edge ∈ (b.jumps.resolve offsets b.nodeAt? b.graph).1.edges)
    (data : edge.kind = .data) : edge ∈ b.graph.edges := by
  obtain ⟨_, edges, _⟩ := b.jumps.resolve_changes offsets b.nodeAt? records.flowless
    records.obligations_nodup
  rw [← Array.mem_toList_iff, edges, List.mem_append] at member
  rcases member with member | member
  · exact Array.mem_toList_iff.mp member
  · obtain ⟨o, _, landed⟩ := List.mem_filterMap.mp member
    rw [(JumpTable.edge?_eq_some landed).1] at data
    cases data

end Build.Records

/-! ### Graphs -/

/-- A build that is finished gives a well-formed graph. -/
theorem Build.Finished.wellFormed {offsets : OffsetTable}
    (finished : b.Finished settings (fun _ => False) stream entries kept pairs
      (b.jumps.resolve offsets b.nodeAt? b.graph).1) :
    (b.jumps.resolve offsets b.nodeAt? b.graph).1.WellFormed where
  ids id node found := (finished.node_sound found).1
  distinct id node found := (finished.node_sound found).2.1
  pins id node found := (finished.node_sound found).2.2
  increasing id id' offset offset' stands stands' earlier := by
    obtain ⟨k, member, rfl, rfl⟩ := (finished.isInstruction_iff _ _).mp stands
    obtain ⟨k', member', rfl, rfl⟩ := (finished.isInstruction_iff _ _).mp stands'
    exact finished.offsets_increasing member member' earlier
  execution edge member execution := by
    obtain ⟨o, owed, source, pin⟩ := finished.records.owed_of_execution offsets member execution
    have leads := finished.connected.single edge member execution
    rw [← source, ← pin] at leads ⊢
    obtain ⟨k, keptMember, node, _⟩ := (finished.connected.target o owed _).mp leads
    refine ⟨finished.output_of_owed owed,
      finished.records.execution_enters offsets edge member execution, k.instruction.offset, ?_⟩
    exact (finished.isInstruction_iff _ _).mpr ⟨k, keptMember, node, rfl⟩
  single := finished.records.execution_edges_nodup offsets
  data edge member data := by
    have old := finished.records.data_edge offsets member data
    obtain ⟨fromResult, elsewhere⟩ := finished.records.carries edge old
    have inside := finished.records.shares.inside edge old data
    obtain ⟨target, found⟩ : ∃ target, b.graph.node? edge.target = some target :=
      ⟨_, Array.getElem?_eq_getElem inside⟩
    rw [← finished.node?_eq] at found
    -- The edge feeds its target, and a node is fed only at the inputs that it has.
    have feeds : edge.source ∈
        (b.jumps.resolve offsets b.nodeAt? b.graph).1.dataSources edge.target edge.targetPin := by
      refine List.mem_map_of_mem (List.mem_filter.mpr ⟨Array.mem_toList_iff.mpr member, ?_⟩)
      simp [data]
    have notEntry : target.kind ≠ .entry := by
      intro entry
      rcases finished.recorded found (by simp [entry]) with ⟨start, isEntry, same, _⟩ | ⟨_, _, _, kind, _⟩
      · exact elsewhere (same ▸ List.mem_map_of_mem isEntry)
      · rw [entry] at kind
        cases kind
    rcases finished.input_or_bare found edge.targetPin with ⟨pin, source, only, isValue⟩ | ⟨_, none⟩
    · rw [only, List.mem_singleton] at feeds
      exact ⟨fromResult, feeds ▸ isValue, target, found, notEntry, pin⟩
    · rw [none] at feeds
      cases feeds
  fed id node pin found asked := by
    rcases finished.input_or_bare found pin with ⟨_, source, only, _⟩ | ⟨absent, _⟩
    · exact ⟨source, only⟩
    · exact absurd asked absent

/-- Every known stream has a graph, and it is well formed, whichever known operands got their values
before. -/
theorem graph_wellFormed (job : Job) (operands : List (Expr String))
    (operandsKnown : ∀ e ∈ operands, e.known = true) (known : ∀ e ∈ job.stream, e.known = true) :
    ∃ g, job.finish (Build.valueAll job.settings.mode operands {}).2 = .ok g ∧ g.WellFormed := by
  obtain ⟨start, values, shared, _, _⟩ :=
    Shares.valueAll (b := {}) (.empty job.settings.mode fun _ => False) operandsKnown
  have keeps : Build.Keeps {} start := by
    have keeps := Build.valueAll_keeps job.settings.mode operands {}
    rwa [values] at keeps
  have entered := addEntries_recorded job (.of_values shared keeps)
  obtain ⟨offsets, b, kept, pairs, built, run, finished, _⟩ := job.run_of_known start entered known
  refine ⟨_, ?_, finished.wellFormed⟩
  rw [values]
  exact Job.finish_of_run built run

/-- A branch merged into the access that it is the member of. Its condition is the object of the
access, which had a value before. -/
theorem graph_wellFormed_branch :
    let object : Expr String := .atom (.marker .selfObject)
    let job : Job :=
      { settings := { mode := .pseudoBlueprint }
        stream := [.binary (.context .failSilent 0 "Actor") object (.unary (.jumpIfNot 0) object)]
        entry := some "Main" }
    ((∀ e ∈ [object], e.known = true) ∧ ∀ e ∈ job.stream, e.known = true) ∧
      ∃ g, job.finish (Build.valueAll job.settings.mode [object] {}).2 = .ok g ∧ g.WellFormed ∧
        g.edges.toList =
          [⟨.data, 0, resultPin, 2, "owner"⟩, ⟨.data, 0, resultPin, 2, "condition"⟩,
            ⟨.execution, 1, thenPin, 2, executePin⟩, ⟨.execution, 2, "false", 2, executePin⟩] := by
  intro object job
  have objectKnown : ∀ e ∈ [object], e.known = true := by simp [object, Expr.known, Atom.known]
  have known : ∀ e ∈ job.stream, e.known = true := by
    simp [job, object, Expr.known, Atom.known]
  obtain ⟨g, built, wellFormed⟩ := graph_wellFormed job [object] objectKnown known
  have edges : ((job.finish (Build.valueAll job.settings.mode [object] {}).2).toOption.map
      (·.edges.toList)) = some
        [⟨.data, 0, resultPin, 2, "owner"⟩, ⟨.data, 0, resultPin, 2, "condition"⟩,
          ⟨.execution, 1, thenPin, 2, executePin⟩, ⟨.execution, 2, "false", 2, executePin⟩] := by
    subst job object
    decide
  rw [built] at edges
  exact ⟨⟨objectKnown, known⟩, g, built, wellFormed, Option.some.inj edges⟩

end ScriptFlow
