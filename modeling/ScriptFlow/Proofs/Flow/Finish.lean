import ScriptFlow.Proofs.Flow.Stream
import ScriptFlow.Proofs.Jump.Resolution

/-! The finished graph. It has the nodes of the construction, its data edges are those of the
construction, and each execution output leads to the instruction at the end of the chain of folded
offsets from where it continues, if that instruction has a node; otherwise it leads nowhere. -/
namespace ScriptFlow

variable {settings : DecodeSettings} {isOpen : NodeId → Prop} {entries : List Entry}
  {kept : List Kept} {pairs : List (Nat × Nat)} {all : List (Instruction String)}
  {b : Build}

/-! ### Kept and folded instructions -/

theorem Sifts.kept_sublist {kept : List (Instruction String)} (sifts : Sifts settings all kept pairs) :
    kept.Sublist all := by
  induction sifts with
  | nil => exact .slnil
  | keep i sifts returns ih => exact ih.append (List.Sublist.refl _)
  | fold i sifts folded ih => exact ih.trans (List.sublist_append_left _ _)

/-- Every instruction is kept or folded. -/
theorem Sifts.kept_or_folded {kept : List (Instruction String)}
    (sifts : Sifts settings all kept pairs) {i : Instruction String} (member : i ∈ all) :
    i ∈ kept ∨ ∃ target, (i.offset, target) ∈ pairs := by
  induction sifts with
  | nil => cases member
  | keep j sifts returns ih =>
    rcases List.mem_append.mp member with member | member
    · exact (ih member).imp_left (List.mem_append_left _)
    · exact .inl (List.mem_append_right _ member)
  | fold j sifts folded ih =>
    rcases List.mem_append.mp member with member | member
    · exact (ih member).imp_right fun ⟨target, pair⟩ => ⟨target, List.mem_append_left _ pair⟩
    · cases List.mem_singleton.mp member
      exact .inr ⟨_, List.mem_append_right _ (List.mem_singleton_self _)⟩

/-- No instruction is both kept and folded. -/
theorem Sifts.not_folded {kept : List (Instruction String)} (sifts : Sifts settings all kept pairs)
    (distinct : (all.map (·.offset)).Nodup) {i : Instruction String} (member : i ∈ kept)
    (target : Nat) : (i.offset, target) ∉ pairs := by
  induction sifts with
  | nil => cases member
  | @keep all kept pairs j sifts returns ih =>
    rw [List.map_append, List.nodup_append] at distinct
    rcases List.mem_append.mp member with member | member
    · exact ih distinct.1 member
    · cases List.mem_singleton.mp member
      intro pair
      obtain ⟨other, otherMember, same, _⟩ := sifts.mem_of_pair pair
      exact distinct.2.2 other.offset (List.mem_map_of_mem otherMember) i.offset (by simp) same
  | @fold all kept pairs target j sifts folded ih =>
    rw [List.map_append, List.nodup_append] at distinct
    intro pair
    rcases List.mem_append.mp pair with pair | pair
    · exact ih distinct.1 member pair
    · have same : i.offset = j.offset := (Prod.mk.inj (List.mem_singleton.mp pair)).1
      have earlier := sifts.kept_sublist.subset member
      exact distinct.2.2 i.offset (List.mem_map_of_mem earlier) j.offset (by simp) same

/-! ### What is owed -/

theorem owed_of_entry {entry : Entry} (member : entry ∈ entries) :
    ⟨entry.node, thenPin, entry.start⟩ ∈ owedBy settings entries kept :=
  List.mem_append_left _ (List.mem_map.mpr ⟨entry, member, rfl⟩)

theorem owed_of_flow {k : Kept} (member : k ∈ kept) {pin : String} {x : Nat}
    (continues : (pin, x) ∈ flowsOf k.instruction.next (k.parts settings)) :
    ⟨k.node, pin, x⟩ ∈ owedBy settings entries kept :=
  List.mem_append_right _
    (List.mem_flatMap.mpr ⟨k, member, List.mem_map.mpr ⟨(pin, x), continues, rfl⟩⟩)

theorem owedBy_nodup (distinct : (entries.map (·.node) ++ kept.map (·.node)).Nodup) :
    ((owedBy settings entries kept).map fun o => (o.source, o.pin)).Nodup := by
  rw [List.nodup_append] at distinct
  obtain ⟨entriesDistinct, keptDistinct, apart⟩ := distinct
  have source {k : Kept} {place : NodeId × String}
      (member : place ∈ (k.instruction.owes k.node (k.parts settings)).map
        fun o => (o.source, o.pin)) : place.1 = k.node := by
    obtain ⟨o, owed, rfl⟩ := List.mem_map.mp member
    obtain ⟨flow, _, rfl⟩ := List.mem_map.mp owed
    rfl
  rw [owedBy, List.map_append, List.map_map, List.map_flatMap, List.nodup_append]
  refine ⟨?_, List.nodup_flatMap.mpr ⟨fun k _ => ?_, ?_⟩, ?_⟩
  · have pinned := entriesDistinct.map (f := fun id => (id, thenPin)) fun _ _ => congrArg Prod.fst
    rwa [List.map_map] at pinned
  · have pinned := (flowsOf_nodup k.instruction.next (k.parts settings)).map
      (f := fun pin => (k.node, pin)) fun _ _ => congrArg Prod.snd
    rw [List.map_map] at pinned
    rwa [Instruction.owes, List.map_map]
  · refine (List.pairwise_map.mp keptDistinct).imp fun different place first second => ?_
    exact different ((source first).symm.trans (source second))
  · rintro place first _ second rfl
    obtain ⟨entry, entryMember, rfl⟩ := List.mem_map.mp first
    obtain ⟨k, keptMember, owed⟩ := List.mem_flatMap.mp second
    exact apart _ (List.mem_map_of_mem entryMember) _ (List.mem_map_of_mem keptMember) (source owed)

/-- No output is owed twice. -/
theorem Build.Records.obligations_nodup (records : b.Records settings isOpen entries kept pairs) :
    (b.jumps.obligations.map fun o => (o.source, o.pin)).Nodup := by
  rw [records.accounts.obligations, List.map_map]
  exact owedBy_nodup records.distinct

/-! ### The finished graph -/

/-- The node of a kept instruction is the one at its position. -/
theorem Build.Records.nodeAt?_iff (records : b.Records settings isOpen entries kept pairs)
    (distinct : (kept.map (·.instruction.position)).Nodup) (position : Nat) (node : NodeId) :
    b.nodeAt? position = .some node ↔
      ∃ k ∈ kept, k.instruction.position = position ∧ k.node = node := by
  have keys : (b.execNodes.map (·.1)).Nodup := by
    rwa [records.execNodes, List.map_map]
  rw [Build.nodeAt?, find?_key_iff keys, records.execNodes]
  simp

/-- A graph in which the outputs of a build are connected. Each output that is owed leads to the node
of the instruction at the end of the chain from its target, if that instruction was kept. -/
structure Build.Connected (b : Build) (settings : DecodeSettings) (entries : List Entry)
    (kept : List Kept) (g : Graph) : Prop where
  nodes : g.nodes = b.graph.nodes
  sources : ∀ id pin, g.dataSources id pin = b.graph.dataSources id pin
  target : ∀ o ∈ owedBy settings entries kept, ∀ node,
    g.execTarget? o.source o.pin = some node ↔
      ∃ k ∈ kept, k.node = node ∧ k.instruction.offset = b.jumps.canonical o.target
  single : ∀ edge ∈ g.edges, edge.kind = .execution →
    g.execTarget? edge.source edge.sourcePin = some edge.target

/-- Resolving the pending jumps connects the outputs of a build. -/
theorem Build.Records.connected (records : b.Records settings isOpen entries kept pairs)
    {stream : List (Expr String)} (known : ∀ e ∈ stream, e.known = true)
    (sifts : Sifts settings (instructions stream) (kept.map (·.instruction)) pairs)
    {offsets : OffsetTable} (built : OffsetTable.build stream = .ok offsets) :
    b.Connected settings entries kept (b.jumps.resolve offsets b.nodeAt? b.graph).1 := by
  have obligations := records.accounts.obligations
  have distinct := records.obligations_nodup
  obtain ⟨nodes, edges, _⟩ := b.jumps.resolve_changes offsets b.nodeAt? records.flowless distinct
  obtain ⟨owed, single⟩ := b.jumps.resolve_execTarget? offsets b.nodeAt? records.flowless distinct
  have inStream (k : Kept) (member : k ∈ kept) : k.instruction ∈ instructions stream :=
    sifts.kept_sublist.subset (List.mem_map_of_mem member)
  have positions := instructions_positions_nodup known
  have keptPositions : (kept.map (·.instruction.position)).Nodup := by
    have sub := positions.sublist (sifts.kept_sublist.map (·.position))
    rwa [List.map_map] at sub
  refine ⟨nodes, fun id pin => ?_, fun o member node => ?_, single⟩
  · refine Graph.dataSources_append edges (fun edge member data => ?_) pin
    obtain ⟨o, _, landed⟩ := List.mem_filterMap.mp member
    rw [(JumpTable.edge?_eq_some landed).1] at data
    cases data
  · have listed : { o with target := b.jumps.canonical o.target } ∈ b.jumps.obligations := by
      rw [obligations]
      exact List.mem_map.mpr ⟨o, member, rfl⟩
    rw [owed _ listed, JumpTable.landing?, JumpTable.canonical_canonical records.accounts.flat,
      Option.bind_eq_some_iff]
    simp only [OffsetTable.topAt?_iff built, records.nodeAt?_iff keptPositions]
    constructor
    · rintro ⟨position, ⟨i, iMember, offset, rfl⟩, k, keptMember, samePosition, rfl⟩
      have same := List.inj_on_of_nodup_map positions (inStream k keptMember) iMember samePosition
      exact ⟨k, keptMember, rfl, by rw [same, offset]⟩
    · rintro ⟨k, keptMember, rfl, offset⟩
      exact ⟨_, ⟨k.instruction, inStream k keptMember, offset, rfl⟩, k, keptMember, rfl, rfl⟩

/-- The node with an id is that of the instruction at an offset. -/
def Graph.IsInstruction (g : Graph) (id : NodeId) (offset : Nat) : Prop :=
  ∃ node, g.node? id = some node ∧ node.kind = .instruction offset

/-- The instruction at an offset has a node. -/
def Graph.HasInstruction (g : Graph) (offset : Nat) : Prop := ∃ id, g.IsInstruction id offset

theorem Graph.IsInstruction.unique {g : Graph} {id : NodeId} {offset offset' : Nat}
    (first : g.IsInstruction id offset) (second : g.IsInstruction id offset') :
    offset = offset' := by
  obtain ⟨node, found, kind⟩ := first
  obtain ⟨node', found', kind'⟩ := second
  rw [found] at found'
  cases found'
  rw [kind] at kind'
  cases kind'
  rfl

/-- The graph of a stream, with what its construction recorded. -/
structure Build.Finished (b : Build) (settings : DecodeSettings) (isOpen : NodeId → Prop)
    (stream : List (Expr String)) (entries : List Entry) (kept : List Kept)
    (pairs : List (Nat × Nat)) (g : Graph) : Prop where
  records : b.Records settings isOpen entries kept pairs
  sifts : Sifts settings (instructions stream) (kept.map (·.instruction)) pairs
  connected : b.Connected settings entries kept g
  known : ∀ e ∈ stream, e.known = true

namespace Build.Finished

variable {stream : List (Expr String)} {g : Graph}

theorem node?_eq (finished : b.Finished settings isOpen stream entries kept pairs g)
    (id : NodeId) : g.node? id = b.graph.node? id := by
  rw [Graph.node?, Graph.node?, finished.connected.nodes]

theorem entry_node (finished : b.Finished settings isOpen stream entries kept pairs g)
    {entry : Entry} (member : entry ∈ entries) : g.node? entry.node = some entry.shown := by
  rw [finished.node?_eq]
  exact finished.records.entry entry member

theorem kept_node (finished : b.Finished settings isOpen stream entries kept pairs g) {k : Kept}
    (member : k ∈ kept) : ∃ node, g.node? k.node = some node ∧
      node.kind = .instruction k.instruction.offset ∧ node.pins = execPins (k.parts settings) := by
  rw [finished.node?_eq]
  exact ⟨_, (finished.records.instruction k member).node, rfl, rfl⟩

theorem mem_instructions (finished : b.Finished settings isOpen stream entries kept pairs g)
    {k : Kept} (member : k ∈ kept) : k.instruction ∈ instructions stream :=
  finished.sifts.kept_sublist.subset (List.mem_map_of_mem member)

/-- The node of an instruction has the parts of a known operation. -/
theorem equipped (finished : b.Finished settings isOpen stream entries kept pairs g)
    {k : Kept} (member : k ∈ kept) :
    SoundParts (k.parts settings) ∧ g.Presents settings b.values k := by
  have inStream := instructionsFrom_expr (finished.mem_instructions member)
  have known := finished.known _ (List.mem_of_getElem? inStream)
  have presented := finished.records.instruction k member
  exact ⟨execParts_sound settings known, presented.mono (List.Subset.refl _)
    (finished.node?_eq _) (finished.connected.sources _)⟩

/-- All nodes but values are those of entries and kept instructions. -/
theorem recorded (finished : b.Finished settings isOpen stream entries kept pairs g) {id : NodeId}
    {node : Node} (found : g.node? id = some node) (kind : node.kind ≠ .value) :
    (∃ entry ∈ entries, entry.node = id ∧ node = entry.shown) ∨
      ∃ k ∈ kept, k.node = id ∧ node.kind = .instruction k.instruction.offset ∧
        node.pins = execPins (k.parts settings) := by
  have member := finished.records.complete id node (finished.node?_eq id ▸ found) kind
  rcases List.mem_append.mp member with member | member
  · obtain ⟨entry, entryMember, rfl⟩ := List.mem_map.mp member
    rw [finished.entry_node entryMember] at found
    cases found
    exact .inl ⟨entry, entryMember, rfl, rfl⟩
  · obtain ⟨k, keptMember, rfl⟩ := List.mem_map.mp member
    obtain ⟨other, otherFound, otherKind, pins⟩ := finished.kept_node keptMember
    rw [found] at otherFound
    cases otherFound
    exact .inr ⟨k, keptMember, rfl, otherKind, pins⟩

/-- Jumps are owed for execution outputs of entries and instructions, -/
theorem output_of_owed (finished : b.Finished settings isOpen stream entries kept pairs g)
    {o : Obligation} (owed : o ∈ owedBy settings entries kept) :
    ∃ node, g.node? o.source = some node ∧ node.kind ≠ .value ∧
      ⟨o.pin, .output, .execution⟩ ∈ node.pins := by
  rcases List.mem_append.mp owed with owed | owed
  · obtain ⟨entry, member, rfl⟩ := List.mem_map.mp owed
    exact ⟨entry.shown, finished.entry_node member, by simp [Entry.shown], by simp [Entry.shown]⟩
  · obtain ⟨k, member, owed⟩ := List.mem_flatMap.mp owed
    obtain ⟨flow, continues, rfl⟩ := List.mem_map.mp owed
    obtain ⟨node, found, kind, pins⟩ := finished.kept_node member
    refine ⟨node, found, by simp [kind], ?_⟩
    rw [pins, mem_execPins_output k.instruction.next]
    exact ⟨flow.2, continues⟩

/-- and for all of them. -/
theorem owed_of_output (finished : b.Finished settings isOpen stream entries kept pairs g)
    {id : NodeId} {node : Node} {pin : String} (found : g.node? id = some node)
    (flows : node.kind ≠ .value) (output : ⟨pin, .output, .execution⟩ ∈ node.pins) :
    ∃ x, ⟨id, pin, x⟩ ∈ owedBy settings entries kept := by
  rcases finished.recorded found flows with ⟨entry, member, rfl, rfl⟩ | ⟨k, member, rfl, _, pins⟩
  · cases List.mem_singleton.mp output
    exact ⟨entry.start, owed_of_entry member⟩
  · rw [pins, mem_execPins_output k.instruction.next] at output
    obtain ⟨x, continues⟩ := output
    exact ⟨x, owed_of_flow member continues⟩

/-- Instruction nodes are those of the kept instructions. -/
theorem isInstruction_iff (finished : b.Finished settings isOpen stream entries kept pairs g)
    (id : NodeId) (offset : Nat) :
    g.IsInstruction id offset ↔ ∃ k ∈ kept, k.node = id ∧ k.instruction.offset = offset := by
  constructor
  · rintro ⟨node, found, kind⟩
    rcases finished.recorded found (by simp [kind]) with ⟨entry, _, _, rfl⟩ | ⟨k, member, rfl, kind', _⟩
    · cases kind
    · rw [kind] at kind'
      cases kind'
      exact ⟨k, member, rfl, rfl⟩
  · rintro ⟨k, member, rfl, rfl⟩
    obtain ⟨node, found, kind, _⟩ := finished.kept_node member
    exact ⟨node, found, kind⟩

theorem hasInstruction_iff (finished : b.Finished settings isOpen stream entries kept pairs g)
    (offset : Nat) : g.HasInstruction offset ↔ ∃ k ∈ kept, k.instruction.offset = offset := by
  simp only [Graph.HasInstruction, finished.isInstruction_iff]
  constructor
  · rintro ⟨id, k, member, _, same⟩
    exact ⟨k, member, same⟩
  · rintro ⟨k, member, same⟩
    exact ⟨k.node, k, member, rfl, same⟩

/-- An output that is owed leads to the instruction at the end of the chain from its target, -/
theorem leads_iff (finished : b.Finished settings isOpen stream entries kept pairs g)
    {o : Obligation} (owed : o ∈ owedBy settings entries kept) (offset : Nat) :
    (∃ t, g.execTarget? o.source o.pin = some t ∧ g.IsInstruction t offset) ↔
      offset = b.jumps.canonical o.target ∧ g.HasInstruction offset := by
  have leads := finished.connected.target o owed
  constructor
  · rintro ⟨t, edge, stands⟩
    obtain ⟨k, member, rfl, ends⟩ := (leads t).mp edge
    have own := (finished.isInstruction_iff k.node k.instruction.offset).mpr ⟨k, member, rfl, rfl⟩
    exact ⟨(stands.unique own).trans ends, k.node, stands⟩
  · rintro ⟨rfl, present⟩
    obtain ⟨k, member, same⟩ := (finished.hasInstruction_iff _).mp present
    exact ⟨k.node, (leads k.node).mpr ⟨k, member, rfl, same⟩,
      (finished.isInstruction_iff _ _).mpr ⟨k, member, rfl, same⟩⟩

/-- and nowhere if there is none. -/
theorem leads_nowhere_iff (finished : b.Finished settings isOpen stream entries kept pairs g)
    {o : Obligation} (owed : o ∈ owedBy settings entries kept) :
    g.execTarget? o.source o.pin = none ↔ ¬ g.HasInstruction (b.jumps.canonical o.target) := by
  rw [Option.eq_none_iff_forall_ne_some, finished.hasInstruction_iff]
  constructor
  · rintro nowhere ⟨k, member, same⟩
    exact nowhere k.node ((finished.connected.target o owed _).mpr ⟨k, member, rfl, same⟩)
  · intro absent t edge
    obtain ⟨k, member, _, same⟩ := (finished.connected.target o owed t).mp edge
    exact absent ⟨k, member, same⟩

/-- No folded offset has a node. -/
theorem absent_of_pair (finished : b.Finished settings isOpen stream entries kept pairs g)
    {x y : Nat} (pair : (x, y) ∈ pairs) : ¬ g.HasInstruction x := by
  rw [finished.hasInstruction_iff]
  rintro ⟨k, member, rfl⟩
  exact finished.sifts.not_folded (instructions_offsets_nodup finished.known)
    (List.mem_map_of_mem member) y pair

end Build.Finished

/-! ### Nodes of two graphs -/

/-- Nodes of two graphs that stand for one entry or for one instruction. -/
structure Graph.Matches (g g' : Graph) (s s' : NodeId) (node node' : Node) : Prop where
  found : g.node? s = some node
  found' : g'.node? s' = some node'
  flows : node.kind ≠ .value
  kind : node.kind = node'.kind
  entry : node.kind = .entry → s = s'

theorem Graph.Matches.symm {g g' : Graph} {s s' : NodeId} {node node' : Node}
    (matched : g.Matches g' s s' node node') : g'.Matches g s' s node' node where
  found := matched.found'
  found' := matched.found
  flows := matched.kind ▸ matched.flows
  kind := matched.kind.symm
  entry isEntry := (matched.entry (matched.kind.trans isEntry)).symm

section TwoBuilds

variable {settings' : DecodeSettings} {stream : List (Expr String)} {kept' : List Kept}
  {pairs' : List (Nat × Nat)} {b' : Build} {g g' : Graph} {s s' : NodeId} {node node' : Node}

/-- Nodes that match are those of one entry or of one instruction. -/
theorem Graph.Matches.place (done : b.Finished settings isOpen stream entries kept pairs g)
    (done' : b'.Finished settings' isOpen stream entries kept' pairs' g')
    (matched : g.Matches g' s s' node node') :
    (∃ start ∈ entries, start.node = s ∧ s' = s ∧ node = start.shown ∧ node' = start.shown) ∨
      ∃ k ∈ kept, ∃ k' ∈ kept', k.node = s ∧ k'.node = s' ∧ k'.instruction = k.instruction ∧
        node.pins = execPins (k.parts settings) ∧ node'.pins = execPins (k'.parts settings') ∧
        node'.kind = .instruction k'.instruction.offset := by
  rcases done.recorded matched.found matched.flows with
    ⟨start, member, rfl, rfl⟩ | ⟨k, member, rfl, kind, pins⟩
  · obtain rfl := matched.entry rfl
    have found' := matched.found'
    rw [done'.entry_node member] at found'
    cases found'
    exact .inl ⟨start, member, rfl, rfl, rfl, rfl⟩
  · rcases done'.recorded matched.found' (matched.kind ▸ matched.flows) with
      ⟨start, _, _, rfl⟩ | ⟨k', member', rfl, kind', pins'⟩
    · have kinds := matched.kind
      rw [kind] at kinds
      cases kinds
    · have offsets : k'.instruction.offset = k.instruction.offset := by
        have kinds := matched.kind
        rw [kind, kind'] at kinds
        exact (NodeKind.instruction.inj kinds).symm
      have same := List.inj_on_of_nodup_map (instructions_offsets_nodup done.known)
        (done'.mem_instructions member') (done.mem_instructions member) offsets
      exact .inr ⟨k, member, k', member', rfl, rfl, same, pins, pins', kind'⟩

end TwoBuilds

/-! ### Graphs of known streams -/

/-- The construction of a known stream comes to its end, and connecting its outputs finishes the
graph. -/
theorem Job.run_of_known (job : Job) (start : Build)
    (entered : (job.addEntries start).Records job.settings isOpen entries [] [])
    (known : ∀ e ∈ job.stream, e.known = true) :
    ∃ offsets b kept pairs, OffsetTable.build job.stream = .ok offsets ∧
      Build.addStream job.settings 0 0 job.stream (job.addEntries start) = .ok b ∧
      b.Finished job.settings isOpen job.stream entries kept pairs
        (b.jumps.resolve offsets b.nodeAt? b.graph).1 ∧
      (job.addEntries start).Grows (fun _ => True) b := by
  obtain ⟨offsets, built⟩ := OffsetTable.build_of_known known
  obtain ⟨b, kept, pairs, run, records, sifts, grows⟩ :=
    addStream_records entered .nil known 0 0 (by simp)
  exact ⟨offsets, b, kept, pairs, built, run,
    ⟨records, sifts, records.connected known sifts built, known⟩, grows⟩

theorem Job.finish_of_run {job : Job} {start : Build} {offsets : OffsetTable}
    (built : OffsetTable.build job.stream = .ok offsets)
    (run : Build.addStream job.settings 0 0 job.stream (job.addEntries start) = .ok b) :
    job.finish start = .ok (b.jumps.resolve offsets b.nodeAt? b.graph).1 := by
  simp only [Job.finish, built, run, bind, Except.bind]
  rfl

/-- A known stream always has a graph, which connects a build that holds its entries and all of its
instructions, kept or folded. -/
theorem Job.finish_of_known (job : Job) (start : Build)
    (entered : (job.addEntries start).Records job.settings isOpen entries [] [])
    (known : ∀ e ∈ job.stream, e.known = true) :
    ∃ g b kept pairs, job.finish start = .ok g ∧
      b.Finished job.settings isOpen job.stream entries kept pairs g ∧
      (job.addEntries start).Grows (fun _ => True) b := by
  obtain ⟨offsets, b, kept, pairs, built, run, finished, grows⟩ :=
    job.run_of_known start entered known
  exact ⟨_, b, kept, pairs, Job.finish_of_run built run, finished, grows⟩

/-- Whichever known operands get their values before, a known stream has its graph. -/
theorem Job.finish_of_valued (job : Job) {operands : List (Expr String)}
    (operandsKnown : ∀ e ∈ operands, e.known = true) (known : ∀ e ∈ job.stream, e.known = true) :
    ∃ (b : Build) (offsets : OffsetTable) (entries : List Entry) (kept : List Kept)
      (pairs : List (Nat × Nat)),
      job.finish (Build.valueAll job.settings.mode operands {}).2 =
          .ok (b.jumps.resolve offsets b.nodeAt? b.graph).1 ∧
        b.Finished job.settings (fun _ => False) job.stream entries kept pairs
          (b.jumps.resolve offsets b.nodeAt? b.graph).1 := by
  obtain ⟨start, values, shared, _, _⟩ :=
    Shares.valueAll (b := {}) (.empty job.settings.mode fun _ => False) operandsKnown
  have keeps := Build.valueAll_keeps job.settings.mode operands {}
  rw [values] at keeps ⊢
  have entered := addEntries_recorded job (.of_values shared keeps)
  obtain ⟨offsets, b, kept, pairs, built, run, finished, _⟩ := job.run_of_known start entered known
  exact ⟨b, offsets, _, kept, pairs, Job.finish_of_run built run, finished⟩

/-- The entries of a finished graph are those that the construction started with. -/
theorem Build.Finished.entryNodes {base : Build} {stream : List (Expr String)} {g : Graph}
    (finished : b.Finished settings isOpen stream entries kept pairs g)
    (entered : base.Records settings isOpen entries [] [])
    (grows : base.Grows (fun _ => True) b) : g.entryNodes = base.graph.entryNodes := by
  have nodes (id : Nat) (inside : id < base.graph.nodes.toList.length) :
      g.nodes.toList[id]? = some base.graph.nodes.toList[id] := by
    have early : id < base.graph.nodes.size := by simpa using inside
    have same := (finished.node?_eq id).trans (grows.nodes id early)
    rw [Array.getElem?_toList, ← Graph.node?, same, Graph.node?, Array.getElem?_eq_getElem early]
    rfl
  obtain ⟨rest, appended⟩ := List.prefix_iff_getElem?.mpr nodes
  have later : rest.filter (·.kind = .entry) = [] := by
    rw [List.filter_eq_nil_iff]
    intro node member kind
    obtain ⟨j, bound, rfl⟩ := List.mem_iff_getElem.mp member
    have found : g.node? (base.graph.nextId + j) = some rest[j] := by
      have length : base.graph.nextId = base.graph.nodes.toList.length := by simp [Graph.nextId]
      rw [Graph.node?, ← Array.getElem?_toList, ← appended, length,
        List.getElem?_append_right (Nat.le_add_right _ _), Nat.add_sub_cancel_left,
        List.getElem?_eq_getElem bound]
    have isEntry : rest[j].kind = .entry := by simpa using kind
    rcases finished.recorded found (by simp [isEntry]) with
      ⟨entry, entryMember, sameId, _⟩ | ⟨k, _, _, instruction, _⟩
    · have early := Graph.node?_lt (entered.entry entry entryMember)
      rw [sameId] at early
      exact Nat.not_lt_of_le (Nat.le_add_right _ _) early
    · rw [isEntry] at instruction
      cases instruction
  rw [Graph.entryNodes, Graph.entryNodes, ← appended, List.filter_append, later, List.append_nil]

end ScriptFlow
