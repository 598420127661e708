import ScriptFlow.Proofs.Flow.WellFormed

/-! No control flow is lost. Each execution output is owed one jump, and each jump either lands or is
remarked on, so outputs, edges and warnings add up. A jump that does not land ends at an offset where
nothing starts or where something nested starts: it never ends at an instruction that was folded
away, because the chain from there goes on. -/
namespace ScriptFlow

/-- The execution outputs of a graph, each with its node. -/
def Graph.executionOutputs (g : Graph) : List (NodeId × String) :=
  g.nodes.toList.flatMap fun node =>
    (node.outputs.filter (·.kind = .execution)).map fun pin => (node.id, pin.name)

/-- Whether a report is about an output that leads nowhere. -/
def DiagnosticCode.ofOpenOutput : DiagnosticCode → Bool
  | .danglingOffset | .noExecutionNode => true
  | .aliasCycle | .pinTaken | .malformedLatent | .negativeEntry | .unmodeled => false

/-- An output is accounted for once: by the one edge that leaves it, or by the one warning that names
it and tells why none does. -/
inductive Graph.Accounted (g : Graph) (offsets : OffsetTable) (source : NodeId) (pin : String) : Prop
  | connected (target : NodeId)
    (only : g.edges.toList.filter (Graph.leaves source pin) =
      [⟨.execution, source, pin, target, executePin⟩])
    (silent : g.warnings pin source = [])
  | dangling (target : Nat) (missing : offsets.get? target = none)
    (unconnected : g.edges.toList.filter (Graph.leaves source pin) = [])
    (warned : g.warnings pin source = [.danglingOffset pin source target])
  | nested (target : Nat) (site : Site) (starts : offsets.get? target = some site)
    (inner : site.depth ≠ 0)
    (unconnected : g.edges.toList.filter (Graph.leaves source pin) = [])
    (warned : g.warnings pin source = [.noExecutionNode pin source site.token target])

/-! ### Outputs and jumps -/

namespace Graph.WellFormed

variable {g : Graph} {id : NodeId} {pin : String}

private theorem mem_executionOutputs (wellFormed : g.WellFormed) :
    (id, pin) ∈ g.executionOutputs ↔
      ∃ node, g.node? id = some node ∧ ⟨pin, .output, .execution⟩ ∈ node.pins := by
  constructor
  · intro member
    obtain ⟨node, nodeMember, output⟩ := List.mem_flatMap.mp member
    obtain ⟨place, found⟩ := Array.mem_iff_getElem?.mp (Array.mem_toList_iff.mp nodeMember)
    have own := wellFormed.ids place node found
    obtain ⟨⟨name, direction, kind⟩, isOutput, same⟩ := List.mem_map.mp output
    simp only [List.mem_filter, Node.outputs, Node.pinsFacing, decide_eq_true_eq] at isOutput
    obtain ⟨⟨listed, rfl⟩, rfl⟩ := isOutput
    cases same
    rw [own]
    exact ⟨node, found, listed⟩
  · rintro ⟨node, found, listed⟩
    have own := wellFormed.ids id node found
    have output : (⟨pin, .output, .execution⟩ : Pin) ∈ node.outputs.filter (·.kind = .execution) := by
      simp [Node.outputs, Node.pinsFacing, listed]
    refine List.mem_flatMap.mpr ⟨node, Array.mem_toList_iff.mpr (Array.mem_of_getElem? found), ?_⟩
    rw [own]
    exact List.mem_map.mpr ⟨_, output, rfl⟩

private theorem executionOutputs_nodup (wellFormed : g.WellFormed) : g.executionOutputs.Nodup := by
  have found {i : Nat} (bound : i < g.nodes.toList.length) :
      g.node? i = some g.nodes.toList[i] := by
    rw [Graph.node?, ← Array.getElem?_toList, List.getElem?_eq_getElem bound]
  refine List.nodup_flatMap.mpr ⟨fun node member => ?_, List.pairwise_iff_getElem.mpr ?_⟩
  · obtain ⟨i, bound, rfl⟩ := List.mem_iff_getElem.mp member
    have pins := List.pairwise_map.mp (wellFormed.distinct i _ (found bound))
    rw [List.Nodup, List.pairwise_map, Node.outputs, Node.pinsFacing, List.filter_filter,
      List.pairwise_filter]
    -- Among outputs, pins that differ in name or direction differ in name.
    refine pins.imp fun {first second} different isOutput isOutput' same => ?_
    simp only [Bool.and_eq_true, decide_eq_true_eq] at isOutput isOutput'
    apply different
    rw [isOutput.2, isOutput'.2, (Prod.mk.inj same).2]
  · intro i j iBound jBound earlier place first second
    obtain ⟨_, _, rfl⟩ := List.mem_map.mp first
    obtain ⟨_, _, same⟩ := List.mem_map.mp second
    have sameId := (Prod.mk.inj same).1
    rw [wellFormed.ids i _ (found iBound), wellFormed.ids j _ (found jBound)] at sameId
    exact Nat.ne_of_gt earlier sameId

end Graph.WellFormed

variable {settings : DecodeSettings} {isOpen : NodeId → Prop} {stream : List (Expr String)}
  {entries : List Entry} {kept : List Kept} {pairs : List (Nat × Nat)} {b : Build} {g : Graph}
  {offsets : OffsetTable}

/-- The execution outputs are those that are owed a jump, each once. -/
theorem Build.Finished.executionOutputs_perm
    (finished : b.Finished settings isOpen stream entries kept pairs g)
    (wellFormed : g.WellFormed) :
    g.executionOutputs.Perm ((owedBy settings entries kept).map fun o => (o.source, o.pin)) := by
  have distinct : ((owedBy settings entries kept).map fun o => (o.source, o.pin)).Nodup :=
    owedBy_nodup finished.records.distinct
  refine (List.perm_ext_iff_of_nodup wellFormed.executionOutputs_nodup distinct).mpr ?_
  rintro ⟨id, pin⟩
  rw [wellFormed.mem_executionOutputs]
  constructor
  · rintro ⟨node, found, output⟩
    have flows : node.kind ≠ .value := by
      intro value
      have shaped := wellFormed.pins id node found
      simp only [Node.HasPins, value] at shaped
      have listed : (⟨pin, .output, .execution⟩ : Pin) ∈ node.outputs :=
        List.mem_filter.mpr ⟨output, rfl⟩
      rw [shaped.1] at listed
      cases List.mem_singleton.mp listed
    obtain ⟨x, owed⟩ := finished.owed_of_output found flows output
    exact List.mem_map.mpr ⟨_, owed, rfl⟩
  · intro member
    obtain ⟨o, owed, same⟩ := List.mem_map.mp member
    cases same
    obtain ⟨node, found, _, output⟩ := finished.output_of_owed owed
    exact ⟨node, found, output⟩

/-! ### Edges and remarks -/

namespace JumpTable

/-- A jump has an edge or a remark, and not both. -/
theorem length_edges_add_remarks (table : JumpTable) (offsets : OffsetTable)
    (nodeAt : Nat → Option NodeId) (owed : List Obligation) :
    (owed.filterMap (table.edge? offsets nodeAt)).length +
      (owed.filterMap (table.remark? offsets nodeAt)).length = owed.length := by
  induction owed with
  | nil => rfl
  | cons o rest ih =>
    rw [List.filterMap_cons, List.filterMap_cons, edge?, remark?]
    cases table.landing? offsets nodeAt o with
    | some node =>
      simp only [Option.map_some, List.length_cons]
      omega
    | none =>
      cases offsets.get? (table.canonical o.target) with
      | none =>
        simp only [Option.map_none, List.length_cons]
        omega
      | some site =>
        simp only [Option.map_none, List.length_cons]
        omega

end JumpTable

namespace Build.Records

/-- What is reported about connections, under some of the codes for that, are the remarks under these
codes on the jumps that are owed. -/
theorem reports_eq (records : b.Records settings isOpen entries kept pairs)
    (quiet : b.graph.reports DiagnosticCode.ofJump = []) (offsets : OffsetTable)
    {about : DiagnosticCode → Bool} (ofJump : ∀ code, about code = true → code.ofJump = true) :
    (b.jumps.resolve offsets b.nodeAt? b.graph).1.reports about =
      ((owedBy settings entries kept).filterMap (b.jumps.remark? offsets b.nodeAt?)).filter
        fun d => about d.code := by
  have all : (b.jumps.resolve offsets b.nodeAt? b.graph).1.reports DiagnosticCode.ofJump =
      (owedBy settings entries kept).filterMap (b.jumps.remark? offsets b.nodeAt?) := by
    rw [JumpTable.resolve_reports quiet records.flowless records.obligations_nodup,
      records.accounts.obligations, List.filterMap_map]
    exact List.filterMap_congr fun o _ =>
      JumpTable.remark?_canonical offsets b.nodeAt? records.accounts.flat o
  rw [← all, Graph.reports, Graph.reports, List.filter_filter]
  refine List.filter_congr fun d _ => ?_
  cases code : about d.code with
  | false => rfl
  | true => simp [ofJump d.code code]

/-- Whatever is remarked on the jumps that are owed is about outputs that lead nowhere. -/
private theorem reports_open (records : b.Records settings isOpen entries kept pairs)
    (quiet : b.graph.reports DiagnosticCode.ofJump = []) (offsets : OffsetTable) :
    (b.jumps.resolve offsets b.nodeAt? b.graph).1.reports DiagnosticCode.ofOpenOutput =
      (owedBy settings entries kept).filterMap (b.jumps.remark? offsets b.nodeAt?) := by
  rw [records.reports_eq quiet offsets (fun code => by cases code <;> decide), List.filter_eq_self]
  intro d remarked
  obtain ⟨o, _, isRemark⟩ := List.mem_filterMap.mp remarked
  rcases (JumpTable.remark?_spelled isRemark).1 with code | code
  · rw [code]
    rfl
  · rw [code]
    rfl

/-- No output is to be connected twice. -/
private theorem reports_taken (records : b.Records settings isOpen entries kept pairs)
    (quiet : b.graph.reports DiagnosticCode.ofJump = []) (offsets : OffsetTable) :
    (b.jumps.resolve offsets b.nodeAt? b.graph).1.reports (· = .pinTaken) = [] := by
  rw [records.reports_eq quiet offsets (fun code => by cases code <;> decide), List.filter_eq_nil_iff]
  intro d remarked taken
  obtain ⟨o, _, isRemark⟩ := List.mem_filterMap.mp remarked
  rw [decide_eq_true_eq] at taken
  rcases (JumpTable.remark?_spelled isRemark).1 with code | code
  · rw [code] at taken
    cases taken
  · rw [code] at taken
    cases taken

/-- The edges that leave an output that is owed are the edge of its jump, if that lands. -/
private theorem leaving_edges (records : b.Records settings isOpen entries kept pairs)
    (offsets : OffsetTable) {o : Obligation} (owed : o ∈ owedBy settings entries kept) :
    (b.jumps.resolve offsets b.nodeAt? b.graph).1.edges.toList.filter (Graph.leaves o.source o.pin) =
      (b.jumps.edge? offsets b.nodeAt? o).toList := by
  have distinct : ((owedBy settings entries kept).map fun o => (o.source, o.pin)).Nodup :=
    owedBy_nodup records.distinct
  have ofExecution :
      (b.jumps.resolve offsets b.nodeAt? b.graph).1.edges.toList.filter
          (Graph.leaves o.source o.pin) =
        ((b.jumps.resolve offsets b.nodeAt? b.graph).1.edges.toList.filter
          (·.kind = .execution)).filter (Graph.leaves o.source o.pin) := by
    rw [List.filter_filter]
    refine List.filter_congr fun edge _ => ?_
    by_cases execution : edge.kind = .execution
    · simp [execution]
    · simp [Graph.leaves, execution]
  rw [ofExecution, records.execution_edges offsets]
  refine filter_filterMap_of_key distinct owed fun other _ edge landed => ?_
  obtain ⟨kind, source, pin, _⟩ := JumpTable.edge?_eq_some landed
  simp [Graph.leaves, kind, source, pin]

end Build.Records

/-- A jump that does not land ends where nothing starts or where something nested starts. -/
theorem Build.Finished.nested_of_open
    (finished : b.Finished settings isOpen stream entries kept pairs
      (b.jumps.resolve offsets b.nodeAt? b.graph).1)
    (quiet : b.graph.reports DiagnosticCode.ofJump = [])
    (built : OffsetTable.build stream = .ok offsets) {o : Obligation}
    (owed : o ∈ owedBy settings entries kept)
    (unlanded : b.jumps.landing? offsets b.nodeAt? o = none) {site : Site}
    (starts : offsets.get? (b.jumps.canonical o.target) = some site) : site.depth ≠ 0 := by
  intro top
  have isTop : offsets.topAt? (b.jumps.canonical o.target) = some site.position := by
    simp [OffsetTable.topAt?, starts, Site.isTopLevel, top]
  obtain ⟨i, member, offset, _⟩ := (OffsetTable.topAt?_iff built _ _).mp isTop
  rcases finished.sifts.kept_or_folded member with isKept | ⟨target, pair⟩
  · obtain ⟨k, keptMember, rfl⟩ := List.mem_map.mp isKept
    have lands := (finished.connected.target o owed k.node).mpr ⟨k, keptMember, rfl, offset⟩
    rw [(finished.records.outcome quiet offsets owed).1, unlanded] at lands
    cases lands
  · -- The end of a chain is not the start of another pair.
    have accounts := finished.records.accounts
    have ends := JumpTable.canonical_free accounts.flat o.target
    rw [offset] at pair
    exact (accounts.free _).mp ends target pair

/-- Where an expression without a node is reported, it is nested in an instruction. -/
theorem Build.Finished.nested_of_report
    (finished : b.Finished settings isOpen stream entries kept pairs
      (b.jumps.resolve offsets b.nodeAt? b.graph).1)
    (quiet : b.graph.reports DiagnosticCode.ofJump = [])
    (built : OffsetTable.build stream = .ok offsets) {d : Diagnostic}
    (member : d ∈ (b.jumps.resolve offsets b.nodeAt? b.graph).1.reports (· = .noExecutionNode)) :
    ∃ offset site, d.offset = some offset ∧ offsets.get? offset = some site ∧ site.depth ≠ 0 := by
  rw [finished.records.reports_eq quiet offsets (fun code => by cases code <;> decide),
    List.mem_filter] at member
  obtain ⟨remarked, code⟩ := member
  obtain ⟨o, owed, isRemark⟩ := List.mem_filterMap.mp remarked
  unfold JumpTable.remark? at isRemark
  split at isRemark
  · cases isRemark
  · cases isRemark
    cases code
  · rename_i site unlanded starts
    cases isRemark
    exact ⟨_, site, rfl, starts, finished.nested_of_open quiet built owed unlanded starts⟩

/-- What is nested in an instruction is none of the instructions. -/
private theorem offset_ne_of_nested (built : OffsetTable.build stream = .ok offsets) {offset : Nat}
    {site : Site} (starts : offsets.get? offset = some site) (inner : site.depth ≠ 0)
    {i : Instruction String} (member : i ∈ instructions stream) : i.offset ≠ offset := by
  intro same
  have top := (OffsetTable.topAt?_iff built offset i.position).mpr ⟨i, member, same, rfl⟩
  simp [OffsetTable.topAt?, starts, Site.isTopLevel, inner] at top

/-- Each output that is owed is accounted for. -/
private theorem accounted_of_owed
    (finished : b.Finished settings isOpen stream entries kept pairs
      (b.jumps.resolve offsets b.nodeAt? b.graph).1)
    (quiet : b.graph.reports DiagnosticCode.ofJump = [])
    (built : OffsetTable.build stream = .ok offsets) {o : Obligation}
    (owed : o ∈ owedBy settings entries kept) :
    (b.jumps.resolve offsets b.nodeAt? b.graph).1.Accounted offsets o.source o.pin := by
  have leaving := finished.records.leaving_edges offsets owed
  have warned := (finished.records.outcome quiet offsets owed).2
  rw [JumpTable.edge?] at leaving
  rw [JumpTable.remark?] at warned
  cases landed : b.jumps.landing? offsets b.nodeAt? o with
  | some node =>
    rw [landed] at leaving warned
    exact .connected node leaving warned
  | none =>
    rw [landed] at leaving warned
    cases starts : offsets.get? (b.jumps.canonical o.target) with
    | none =>
      rw [starts] at warned
      exact .dangling _ starts leaving warned
    | some site =>
      rw [starts] at warned
      have inner := finished.nested_of_open quiet built owed landed starts
      exact .nested _ site starts inner leaving warned

/-- Control flow is never lost silently. In the graph of a known stream every execution output is
accounted for once, so that there are as many of them as execution edges and warnings about outputs
that lead nowhere. No output is ever taken, and where a warning speaks of an expression without a
node, that expression is nested in an instruction, so it is no instruction that was folded away. -/
theorem outputs_accounted (job : Job) (known : ∀ e ∈ job.stream, e.known = true) :
    ∃ g offsets, job.graph = .ok g ∧ OffsetTable.build job.stream = .ok offsets ∧
      (∀ output ∈ g.executionOutputs, g.Accounted offsets output.1 output.2) ∧
      g.executionOutputs.length =
        g.edgeCount .execution + (g.reports DiagnosticCode.ofOpenOutput).length ∧
      g.reports (· = .pinTaken) = [] ∧
      ∀ d ∈ g.reports (· = .noExecutionNode), ∃ offset site, d.offset = some offset ∧
        offsets.get? offset = some site ∧ site.depth ≠ 0 ∧
        ∀ i ∈ instructions job.stream, i.offset ≠ offset := by
  have start : ({} : Build).Records job.settings (fun _ => False) [] [] [] :=
    .of_values (.empty _ _) (.refl _)
  obtain ⟨offsets, b, kept, pairs, built, run, finished, _⟩ :=
    job.run_of_known {} (addEntries_recorded job start) known
  have quiet : b.graph.reports DiagnosticCode.ofJump = [] :=
    (addStream_reports run).trans (addEntries_reports rfl job {})
  have wellFormed := finished.wellFormed
  have outputs := finished.executionOutputs_perm wellFormed
  refine ⟨_, offsets, Job.finish_of_run built run, built, fun output member => ?_, ?_,
    finished.records.reports_taken quiet offsets, fun d member => ?_⟩
  · obtain ⟨o, owed, rfl⟩ := List.mem_map.mp (outputs.mem_iff.mp member)
    exact accounted_of_owed finished quiet built owed
  · rw [outputs.length_eq, List.length_map, Graph.edgeCount,
      finished.records.execution_edges offsets, finished.records.reports_open quiet offsets]
    exact (b.jumps.length_edges_add_remarks offsets b.nodeAt? _).symm
  · obtain ⟨offset, site, reported, starts, inner⟩ := finished.nested_of_report quiet built member
    exact ⟨offset, site, reported, starts, inner, fun i => offset_ne_of_nested built starts inner⟩

/-- A branch out of the stream, or through a folded tracepoint and a folded jump into the middle of
the branch. -/
theorem outputs_accounted_branch :
    let job : Job :=
      { settings := { foldTracepoints := true, foldJumps := true }
        stream := [.unary (.jumpIfNot 40) (.atom (.marker .true)), .atom (.marker .tracepoint),
          .atom (.jump 5), .atom (.marker .endOfScript)]
        entry := some "Main" }
    (∀ e ∈ job.stream, e.known = true) ∧
      ∃ g offsets, job.graph = .ok g ∧ OffsetTable.build job.stream = .ok offsets ∧
        g.executionOutputs = [(0, thenPin), (1, "true"), (1, "false")] ∧
        g.Accounted offsets 1 "true" ∧ g.edgeCount .execution = 1 ∧
        (g.reports DiagnosticCode.ofOpenOutput).length = 2 := by
  intro job
  have known : ∀ e ∈ job.stream, e.known = true := by simp [job, Expr.known, Atom.known]
  obtain ⟨g, offsets, graph, built, accounted, count, _, _⟩ := outputs_accounted job known
  have outputs : (job.graph.toOption.map (·.executionOutputs)) =
      some [(0, thenPin), (1, "true"), (1, "false")] := by
    subst job
    decide
  have edges : (job.graph.toOption.map (·.edgeCount .execution)) = some 1 := by
    subst job
    decide
  rw [graph] at outputs edges
  have listed : g.executionOutputs = [(0, thenPin), (1, "true"), (1, "false")] :=
    Option.some.inj outputs
  have connected : g.edgeCount .execution = 1 := Option.some.inj edges
  refine ⟨known, g, offsets, graph, built, listed, accounted (1, "true") ?_, connected, ?_⟩
  · simp [listed]
  · rw [listed, connected] at count
    simp only [List.length_cons, List.length_nil] at count
    omega

end ScriptFlow
