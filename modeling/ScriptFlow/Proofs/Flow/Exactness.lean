import ScriptFlow.Proofs.Expr.Partition
import ScriptFlow.Proofs.Flow.Folding
import ScriptFlow.Proofs.Flow.Warnings

/-! Jumps are resolved exactly. With nothing folded, every position of a stream has one instruction
node, and each output of an entry or an instruction leads to the instruction at which it continues,
if one starts there. Otherwise it leads nowhere, and one warning says so: nothing starts at the
offset, or only something nested in an instruction. -/
namespace ScriptFlow

variable {settings : DecodeSettings} {isOpen : NodeId → Prop} {entries : List Entry}
  {kept : List Kept} {pairs : List (Nat × Nat)} {stream : List (Expr String)} {b : Build}
  {g : Graph} {offsets : OffsetTable} {s : NodeId} {p : String} {x : Nat}

/-- An output that continues at an offset is connected exactly. -/
structure Graph.Settled (g : Graph) (offsets : OffsetTable) (source : NodeId) (pin : String)
    (target : Nat) : Prop where
  /-- An edge leads to the instruction at a position exactly when that one starts at the offset. -/
  edge_iff : ∀ k offset id, offsets.offsetOf? k = some offset → g.IsInstruction id offset →
    (⟨.execution, source, pin, id, executePin⟩ ∈ g.edges ↔ target = offset)
  /-- There are no other edges. -/
  only : ∀ edge ∈ g.edges, edge.kind = .execution → edge.source = source → edge.sourcePin = pin →
    edge.targetPin = executePin ∧ g.IsInstruction edge.target target
  dangling : offsets.get? target = none → g.execTarget? source pin = none ∧
    g.warnings pin source = [.danglingOffset pin source target]
  nested : ∀ site, offsets.get? target = some site → site.depth ≠ 0 →
    g.execTarget? source pin = none ∧
      g.warnings pin source = [.noExecutionNode pin source site.token target]
  silent : ∀ site, offsets.get? target = some site → site.depth = 0 → g.warnings pin source = []

/-- The instruction at a position has one node, which has the outputs of the instruction, each
connected exactly. -/
structure Graph.Represents (g : Graph) (settings : DecodeSettings) (offsets : OffsetTable)
    (k : Nat) (e : Expr String) (id : NodeId) (offset width : Nat) : Prop where
  starts : offsets.offsetOf? k = some offset
  sized : e.size = .ok width
  alone : ∀ other, g.IsInstruction other offset ↔ other = id
  outputs : ∃ node, g.node? id = some node ∧
    node.outputs = (e.continuations settings (offset + width)).map fun output =>
      ⟨output.1, .output, .execution⟩
  settled : ∀ output ∈ e.continuations settings (offset + width),
    g.Settled offsets id output.1 output.2

theorem DecodeSettings.unfolded_eq_self (settings : DecodeSettings)
    (keepTracepoints : settings.foldTracepoints = false) (keepJumps : settings.foldJumps = false) :
    settings.unfolded = settings := by
  obtain ⟨_, _, _, _, _⟩ := settings
  cases keepTracepoints
  cases keepJumps
  rfl

/-! ### Positions and instructions -/

private theorem offsetOf?_of_mem (known : ∀ e ∈ stream, e.known = true)
    (built : OffsetTable.build stream = .ok offsets) {i : Instruction String}
    (member : i ∈ instructions stream) : offsets.offsetOf? i.position = some i.offset := by
  obtain ⟨k, bound, rfl⟩ := List.mem_iff_getElem.mp member
  have listed := instructions_getElem? stream k
  rw [List.getElem?_eq_getElem bound] at listed
  obtain ⟨e, standing, same⟩ := Option.map_eq_some_iff.mp listed.symm
  rw [← same, OffsetTable.offsetOf?_eq known built, standing]
  rfl

theorem entriesFrom_mem {starts : List (String × Nat)} {node : NodeId} {entry : Entry}
    (member : entry ∈ entriesFrom node starts) :
    node ≤ entry.node ∧ starts[entry.node - node]? = some (entry.name, entry.start) := by
  induction starts generalizing node with
  | nil => cases member
  | cons first rest ih =>
    rcases List.mem_cons.mp member with rfl | member
    · simp
    · obtain ⟨later, listed⟩ := ih member
      have shift : entry.node - node = entry.node - (node + 1) + 1 :=
        (Nat.succ_pred_eq_of_pos (Nat.sub_pos_of_lt later)).symm
      rw [shift, List.getElem?_cons_succ]
      exact ⟨Nat.le_of_succ_le later, listed⟩

/-! ### Outputs -/

/-- Execution edges enter instructions at their `execute` pin. -/
theorem Build.Records.execution_enters (records : b.Records settings isOpen entries kept pairs)
    (offsets : OffsetTable) (edge : Edge)
    (member : edge ∈ (b.jumps.resolve offsets b.nodeAt? b.graph).1.edges)
    (execution : edge.kind = .execution) : edge.targetPin = executePin := by
  obtain ⟨_, edges, _⟩ := b.jumps.resolve_changes offsets b.nodeAt? records.flowless
    records.obligations_nodup
  rw [← Array.mem_toList_iff, edges, List.mem_append] at member
  rcases member with member | member
  · exact absurd execution (records.flowless edge (Array.mem_toList_iff.mp member))
  · obtain ⟨o, _, landed⟩ := List.mem_filterMap.mp member
    obtain ⟨node, _, rfl⟩ := Option.map_eq_some_iff.mp landed
    rfl

/-- With nothing folded, an output that is owed is connected exactly. -/
theorem settled_of_owed
    (finished : b.Finished settings.unfolded isOpen stream entries kept pairs
      (b.jumps.resolve offsets b.nodeAt? b.graph).1)
    (quiet : b.graph.reports DiagnosticCode.ofJump = [])
    (built : OffsetTable.build stream = .ok offsets)
    (owes : ⟨s, p, x⟩ ∈ owedBy settings.unfolded entries kept) :
    (b.jumps.resolve offsets b.nodeAt? b.graph).1.Settled offsets s p x := by
  obtain ⟨leads, warned⟩ := finished.records.outcome quiet offsets owes
  have target := finished.target_unfolded owes
  have enters := finished.records.execution_enters offsets
  have own : b.jumps.canonical x = x :=
    (finished.records.accounts.ends x).eq_of_free (finished.sifts.pairs_unfolded x)
  generalize (b.jumps.resolve offsets b.nodeAt? b.graph).1 = g at finished leads warned target enters
  simp only [JumpTable.remark?, JumpTable.landing?, own] at leads warned
  -- The edges of the output are the one that the look-up of its target finds.
  have edge_iff (id : NodeId) : ⟨.execution, s, p, id, executePin⟩ ∈ g.edges ↔
      g.execTarget? s p = some id := by
    constructor
    · exact fun member => finished.connected.single _ member rfl
    · intro found
      obtain ⟨edge, present, rfl⟩ := Option.map_eq_some_iff.mp found
      have leaving := Array.find?_some present
      have member := Array.mem_of_find?_eq_some present
      simp only [Graph.leaves, decide_eq_true_eq] at leaving
      obtain ⟨execution, rfl, rfl⟩ := leaving
      have pin := enters edge member execution
      obtain ⟨_, _, _, _, _⟩ := edge
      cases execution
      cases pin
      exact member
  refine ⟨fun k offset id _ stands => ?_, fun edge member execution source pin => ?_,
    fun missing => ?_, fun site found inner => ?_, fun site found top => ?_⟩
  · rw [edge_iff, target, ← finished.isInstruction_iff]
    constructor
    · exact fun landed => landed.unique stands
    · rintro rfl
      exact stands
  · have single := finished.connected.single edge member execution
    rw [source, pin] at single
    obtain ⟨i, keptMember, node, offset⟩ := (target edge.target).mp single
    exact ⟨enters edge member execution,
      (finished.isInstruction_iff _ _).mpr ⟨i, keptMember, node, offset⟩⟩
  · simp only [OffsetTable.topAt?, missing, Option.bind_none] at leads warned
    exact ⟨leads, warned⟩
  · have isNested : ¬ site.isTopLevel = true := by simpa [Site.isTopLevel] using inner
    simp only [OffsetTable.topAt?, found, Option.bind_some, isNested, Bool.false_eq_true,
      ↓reduceIte, Option.bind_none] at leads warned
    exact ⟨leads, warned⟩
  · have isTop : offsets.topAt? x = some site.position := by
      simp [OffsetTable.topAt?, found, Site.isTopLevel, top]
    obtain ⟨i, member, rfl, _⟩ := (OffsetTable.topAt?_iff built _ _).mp isTop
    obtain ⟨k, keptMember, rfl⟩ := finished.kept_unfolded member
    have lands := (target k.node).mpr ⟨k, keptMember, rfl, rfl⟩
    rw [leads] at lands
    rw [lands] at warned
    exact warned

/-- With nothing folded, every position of the stream is represented by a node. -/
private theorem represents_of_settled
    (finished : b.Finished settings.unfolded isOpen stream entries kept pairs g)
    (built : OffsetTable.build stream = .ok offsets)
    (settled : ∀ s p x, ⟨s, p, x⟩ ∈ owedBy settings.unfolded entries kept →
      g.Settled offsets s p x) {k : Nat} {e : Expr String} (standing : stream[k]? = some e) :
    ∃ id, g.Represents settings.unfolded offsets k e id (startOf stream k) e.bytes := by
  have listed := instructions_getElem? stream k
  rw [standing, Option.map_some] at listed
  obtain ⟨i, member, same⟩ := finished.kept_unfolded (List.mem_of_getElem? listed)
  obtain ⟨node, found, kind, pins⟩ := finished.kept_node member
  rw [same] at kind
  have flows : flowsOf (startOf stream k + e.bytes) (i.parts settings.unfolded) =
      e.continuations settings.unfolded (startOf stream k + e.bytes) := by
    rw [Kept.parts, same]
    exact flowsOf_execParts settings.unfolded e _
  have known := finished.known e (List.mem_of_getElem? standing)
  refine ⟨i.node, ?_, size_of_known known, fun other => ⟨fun stands => ?_, ?_⟩, ⟨node, found, ?_⟩,
    fun output continues => settled _ _ _ ?_⟩
  · rw [OffsetTable.offsetOf?_eq finished.known built, standing]
    rfl
  · obtain ⟨j, otherMember, rfl, offset⟩ := (finished.isInstruction_iff _ _).mp stands
    have distinct : (kept.map (·.instruction.offset)).Nodup := by
      have sub := (instructions_offsets_nodup finished.known).sublist
        (finished.sifts.kept_sublist.map (·.offset))
      rwa [List.map_map] at sub
    have sameKept := List.inj_on_of_nodup_map distinct otherMember member (by rw [offset, same])
    rw [sameKept]
  · rintro rfl
    exact ⟨node, found, kind⟩
  · rw [Node.outputs, Node.pinsFacing, pins, execPins_outputs (startOf stream k + e.bytes), flows]
  · refine owed_of_flow member ?_
    rw [Instruction.next, same, flows]
    exact continues

/-- Behind the node of an instruction stands the next one. -/
theorem Graph.Represents.next_eq {k : Nat} {e : Expr String} {id : NodeId} {offset width : Nat}
    (shown : g.Represents settings offsets k e id offset width)
    (known : ∀ e ∈ stream, e.known = true) (built : OffsetTable.build stream = .ok offsets)
    (standing : stream[k]? = some e) : startOf stream k + e.bytes = offset + width := by
  have starts := shown.starts
  have sized := shown.sized
  rw [OffsetTable.offsetOf?_eq known built, standing] at starts
  rw [size_of_known (known e (List.mem_of_getElem? standing))] at sized
  exact congrArg₂ (· + ·) (Option.some.inj starts) (Except.ok.inj sized)

/-- Jumps are resolved exactly when nothing is folded. A known stream has a graph in which each
position is represented by one instruction node, there are no other instruction nodes, and each
entry continues at the start of its function. An output that continues with the next instruction
leads there, unless there is none. -/
theorem jumps_resolve_exactly (job : Job) (known : ∀ e ∈ job.stream, e.known = true)
    (keepTracepoints : job.settings.foldTracepoints = false)
    (keepJumps : job.settings.foldJumps = false) :
    ∃ g offsets, job.graph = .ok g ∧ OffsetTable.build job.stream = .ok offsets ∧
      (∀ k e, job.stream[k]? = some e →
        ∃ id offset width, g.Represents job.settings offsets k e id offset width) ∧
      (∀ id offset, g.IsInstruction id offset → ∃ k e, job.stream[k]? = some e ∧
        offsets.offsetOf? k = some offset) ∧
      (∀ id node, g.node? id = some node → node.kind = .entry →
        ∃ start, job.entryStarts[id]? = some (node.label, start) ∧
          node.outputs = [⟨thenPin, .output, .execution⟩] ∧ g.Settled offsets id thenPin start) ∧
      ∀ k e id offset width, job.stream[k]? = some e → k + 1 < job.stream.length →
        g.Represents job.settings offsets k e id offset width →
        ∀ pin, (pin, offset + width) ∈ e.continuations job.settings (offset + width) →
          ∃ next, g.IsInstruction next (offset + width) ∧
            offsets.offsetOf? (k + 1) = some (offset + width) ∧
            ⟨.execution, id, pin, next, executePin⟩ ∈ g.edges := by
  have plain := job.settings.unfolded_eq_self keepTracepoints keepJumps
  have start : ({} : Build).Records job.settings (fun _ => False) [] [] [] :=
    .of_values (.empty _ _) (.refl _)
  obtain ⟨offsets, b, kept, pairs, built, run, finished, _⟩ :=
    job.run_of_known {} (addEntries_recorded job start) known
  have quiet : b.graph.reports DiagnosticCode.ofJump = [] :=
    (addStream_reports run).trans (addEntries_reports rfl job {})
  rw [← plain] at finished
  have settled (s : NodeId) (p : String) (x : Nat)
      (owes : ⟨s, p, x⟩ ∈ owedBy job.settings.unfolded (entriesFrom 0 job.entryStarts) kept) :=
    settled_of_owed finished quiet built owes
  have graph := Job.finish_of_run built run
  generalize (b.jumps.resolve offsets b.nodeAt? b.graph).1 = g at finished settled graph
  have represents {k : Nat} {e : Expr String} (standing : job.stream[k]? = some e) :
      ∃ id, g.Represents job.settings offsets k e id (startOf job.stream k) e.bytes := by
    have shown := represents_of_settled finished built settled standing
    rwa [plain] at shown
  refine ⟨g, offsets, graph, built, fun k e standing => ?_, fun id offset stands => ?_,
    fun id node found entry => ?_, fun k e id offset width standing more shown pin falls => ?_⟩
  · obtain ⟨id, shown⟩ := represents standing
    exact ⟨id, _, _, shown⟩
  · obtain ⟨i, member, _, same⟩ := (finished.isInstruction_iff id offset).mp stands
    have listed := finished.mem_instructions member
    rw [← same]
    exact ⟨i.instruction.position, i.instruction.expr, instructionsFrom_expr listed,
      offsetOf?_of_mem known built listed⟩
  · rcases finished.recorded found (by simp [entry]) with
      ⟨start, member, rfl, rfl⟩ | ⟨_, _, _, kind, _⟩
    · refine ⟨start.start, (entriesFrom_mem member).2, rfl, settled _ _ _ ?_⟩
      exact List.mem_append_left _ (List.mem_map.mpr ⟨start, member, rfl⟩)
    · rw [entry] at kind
      cases kind
  · have standing' := List.getElem?_eq_getElem more
    obtain ⟨next, shown'⟩ := represents standing'
    rw [startOf_succ standing, shown.next_eq known built standing] at shown'
    have stands := (shown'.alone next).mpr rfl
    exact ⟨next, stands, shown'.starts,
      ((shown.settled _ falls).edge_iff (k + 1) _ next shown'.starts stands).mpr rfl⟩

/-- A branch out of the stream and a jump into the middle of the branch. -/
theorem jumps_resolve_exactly_branch :
    let job : Job :=
      { stream := [.unary (.jumpIfNot 40) (.atom (.marker .true)), .atom (.jump 5),
          .atom (.marker .endOfScript)]
        entry := some "Main" }
    ((∀ e ∈ job.stream, e.known = true) ∧ job.settings.foldTracepoints = false ∧
      job.settings.foldJumps = false) ∧
      ∃ g offsets branch jump, job.graph = .ok g ∧ OffsetTable.build job.stream = .ok offsets ∧
        g.warnings "false" branch = [.danglingOffset "false" branch 40] ∧
        g.warnings thenPin jump = [.noExecutionNode thenPin jump "EX_True" 5] ∧
        ⟨.execution, branch, "true", jump, executePin⟩ ∈ g.edges := by
  intro job
  have known : ∀ e ∈ job.stream, e.known = true := by simp [job, Expr.known, Atom.known]
  obtain ⟨g, offsets, graph, built, represents, _, _, falls⟩ :=
    jumps_resolve_exactly job known rfl rfl
  have read : (OffsetTable.build job.stream).toOption.map (fun offsets =>
      (offsets.get? 40, offsets.get? 5)) = some (none, some ⟨0, 1, "EX_True"⟩) := by
    subst job
    decide
  rw [built] at read
  obtain ⟨missing, inner⟩ := Prod.mk.inj (Option.some.inj read)
  obtain ⟨branch, start, width, shown⟩ := represents 0 _ rfl
  obtain ⟨jump, start', width', shown'⟩ := represents 1 _ rfl
  obtain ⟨next, stands, starts, edge⟩ :=
    falls 0 _ branch start width rfl (by decide) shown "true" (List.mem_cons_self ..)
  cases starts.symm.trans shown'.starts
  cases (shown'.alone next).mp stands
  have out := (shown.settled ("false", 40) (List.mem_cons_of_mem _ (List.mem_cons_self ..))).dangling
  have into := (shown'.settled (thenPin, 5) (List.mem_cons_self ..)).nested
  exact ⟨⟨known, rfl, rfl⟩, g, offsets, branch, jump, graph, built, (out missing).2,
    (into _ inner (by decide)).2, edge⟩

end ScriptFlow
