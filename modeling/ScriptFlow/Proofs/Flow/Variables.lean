import ScriptFlow.Proofs.Flow.Equality
import ScriptFlow.Proofs.Flow.WellFormed
import ScriptFlow.Proofs.Jump.Conservation
import ScriptFlow.Proofs.Value.Failures
import ScriptFlow.Proofs.Value.Variables

/-! The index of variables in a finished graph. Which value a node is can be told from the graph: it
feeds the input at which its operand occurs, in an instruction or in another value. The nodes under a
variable are those of the operands that read it, wherever these are nested and however often they
occur. -/
namespace ScriptFlow

variable {mode : GraphMode} {settings : DecodeSettings} {stream : List (Expr String)}

/-! ### The index while a stream is walked -/

namespace Build

section Preservation

variable {holds : Build → Prop} {b after : Build} {id : NodeId}

/-- What concerns only the table and the index, and is kept when the operands of an instruction get
their values, the instruction keeps. -/
private theorem addParts_preserves {offset next : Nat} {parts : List ExecPart}
    (same : ∀ b c : Build, c.values = b.values →
      c.graph.variableReaders = b.graph.variableReaders → holds b → holds c)
    (valued : ∀ b pin operand value after, ExecPart.input pin operand ∈ parts → holds b →
      b.value mode operand = (.ok value, after) → holds after)
    (before : holds b) (run : addParts mode id offset next parts b = .ok after) : holds after := by
  induction parts generalizing b with
  | nil =>
    cases run
    exact before
  | cons part rest ih =>
    have restValued := fun b pin operand value after member =>
      valued b pin operand value after (List.mem_cons_of_mem _ member)
    have flow (pin : String) (target : Nat) : holds (b.addFlow id pin target) := by
      rw [addFlow_eq]
      exact same b _ rfl (by simp) before
    cases part with
    | enter =>
      refine ih restValued ?_ run
      exact same b _ rfl (by simp) before
    | next pin => exact ih restValued (flow pin next) run
    | jump pin target => exact ih restValued (flow pin target) run
    | input pin operand =>
      have pinned : holds (b.onGraph (·.addPin id pin .input .data)) :=
        same b _ rfl (by simp) before
      rw [addParts] at run
      rcases called : (b.onGraph (·.addPin id pin .input .data)).value mode operand with
        ⟨outcome, reached⟩
      rw [called] at run
      cases outcome with
      | error gap => cases run
      | ok value =>
        have given := valued _ pin operand value reached (by simp) pinned called
        refine ih restValued ?_ run
        exact same reached _ rfl rfl given
    | malformedLatent function =>
      refine ih restValued ?_ run
      exact same b _ rfl rfl before

private theorem addInstruction_preserves {position offset size : Nat} {e : Expr String}
    (same : ∀ b c : Build, c.values = b.values →
      c.graph.variableReaders = b.graph.variableReaders → holds b → holds c)
    (valued : ∀ b pin operand value after, ExecPart.input pin operand ∈ e.execParts settings →
      holds b → b.value settings.mode operand = (.ok value, after) → holds after)
    (before : holds b) (run : b.addInstruction settings position offset size e = .ok after) :
    holds after := by
  simp only [addInstruction] at run
  split at run
  · cases run
  · rename_i built parts
    cases run
    have given : holds built := by
      refine addParts_preserves same valued ?_ parts
      exact same b _ rfl rfl before
    unfold closeInstruction
    cases ((e.shown settings.mode).execShape settings).title with
    | some title => exact same built _ rfl rfl given
    | none => exact same built _ rfl rfl given

end Preservation

/-- The index follows the table, and the table holds only what the given operands are made of. -/
def Catalogues (mode : GraphMode) (operands : List (Expr String)) (b : Build) : Prop :=
  b.Indexed mode [] ∧ ∀ entry ∈ b.values, ReachedFrom mode operands entry.1

variable {operands : List (Expr String)} {b c after : Build}

theorem Catalogues.congr (before : b.Catalogues mode operands) (values : c.values = b.values)
    (index : c.graph.variableReaders = b.graph.variableReaders) : c.Catalogues mode operands :=
  ⟨before.1.congr values index, values ▸ before.2⟩

/-- A call for one of the operands enters what that is made of. -/
theorem Catalogues.value (before : b.Catalogues mode operands) {operand : Expr String}
    (asked : operand ∈ operands) {id : NodeId}
    (called : b.value mode operand = (.ok id, after)) : after.Catalogues mode operands := by
  refine ⟨value_indexed before.1 called, fun entry member => ?_⟩
  have entered := place_reached (operand.valueTree mode) b entry
  rw [← Build.value, called] at entered
  rcases entered member with old | reached
  · exact before.2 entry old
  · exact ⟨operand, asked, reached⟩

end Build

/-- The operands of the instructions of a stream. -/
def Job.operands (job : Job) : List (Expr String) :=
  job.stream.flatMap fun e => (suppliesOf (e.execParts job.settings)).map (·.2)

theorem Job.mem_operands {job : Job} {operand : Expr String} :
    operand ∈ job.operands ↔
      ∃ e ∈ job.stream, ∃ pin, ExecPart.input pin operand ∈ e.execParts job.settings := by
  simp only [Job.operands, List.mem_flatMap, List.mem_map, Prod.exists, mem_suppliesOf,
    exists_eq_right]

private theorem addEntries_catalogues (job : Job) {operands : List (Expr String)} {b : Build}
    (before : b.Catalogues mode operands) : (job.addEntries b).Catalogues mode operands := by
  refine addEntries_preserves (Build.Catalogues mode operands) ?_ ?_ job before
  · intro c name start before
    refine before.congr rfl ?_
    rw [Build.addEntry, Graph.variableReaders_addPin]
    rfl
  · intro c name entry start before
    exact before.congr rfl rfl

private theorem addStream_catalogues {job : Job} {b after : Build} {position offset : Nat}
    (before : b.Catalogues job.settings.mode job.operands)
    (run : Build.addStream job.settings position offset job.stream b = .ok after) :
    after.Catalogues job.settings.mode job.operands := by
  refine addStream_preserves_of_mem (Build.Catalogues job.settings.mode job.operands) ?_ ?_ ?_
    before run
  · intro c next position offset size e member before step
    refine Build.addInstruction_preserves (fun b c values index before => before.congr values index)
      ?_ before step
    intro b pin operand value after input before called
    exact before.value (Job.mem_operands.mpr ⟨e, member, pin, input⟩) called
  · intro c jumps before
    exact before.congr rfl rfl
  · intro c offset target before
    exact before.congr rfl rfl

/-! ### Values in the graph -/

/-- What an operand reads does not depend on how it is written. -/
theorem reads?_congr {e e' : Expr String} (same : e.normal = e'.normal) :
    e.reads? mode = e'.reads? mode := by
  have own (e : Expr String) : e.normal.variableName? = e.variableName? := by
    cases e with
    | binary op a b => cases op <;> rfl
    | _ => rfl
  rw [Expr.reads?, Expr.reads?, ← own, ← own (e'.shown mode), ← shown_normal, ← shown_normal, same]

/-- A node is the value of an operand: it feeds an input at which the operand occurs, of the node of
an instruction or of the node of another value. -/
inductive Graph.ValueOf (g : Graph) (job : Job) : Expr String → NodeId → Prop
  | supplied {i : Instruction String} {node source : NodeId} {pin : String}
    {operand : Expr String} (member : i ∈ instructions job.stream)
    (stands : g.IsInstruction node i.offset)
    (input : ExecPart.input pin operand ∈ i.expr.execParts job.settings)
    (feeds : source ∈ g.dataSources node pin) : ValueOf g job operand source
  | fed {e operand : Expr String} {shape : ValueShape ValueTree} {id source : NodeId}
    {pin : String} (value : ValueOf g job e id)
    (own : e.valueTree job.settings.mode = .node e shape)
    (input : ValuePart.operand pin (operand.valueTree job.settings.mode) ∈ shape.parts)
    (feeds : source ∈ g.dataSources id pin) : ValueOf g job operand source

/-- An instruction that is folded has no operands. -/
private theorem no_input_of_folded {offset size target : Nat} {e : Expr String}
    (folded : Build.foldTarget? settings offset size e = some target) {pin : String}
    {operand : Expr String} : ExecPart.input pin operand ∉ e.execParts settings := by
  unfold Build.foldTarget? at folded
  split at folded
  case h_4 => cases folded
  all_goals
    rw [execParts_of_plain rfl]
    simp [Expr.execShape, ExecShape.generic]

namespace Build.Finished

variable {job : Job} {entries : List Entry} {kept : List Kept} {pairs : List (Nat × Nat)}
  {b : Build} {g : Graph} {e operand : Expr String} {id node : NodeId} {pin : String}

/-- The node of an instruction is that of the one kept there. -/
private theorem kept_of_stands
    (done : b.Finished settings (fun _ => False) stream entries kept pairs g)
    {i : Instruction String} (member : i ∈ instructions stream)
    (stands : g.IsInstruction node i.offset) : ⟨node, i⟩ ∈ kept := by
  obtain ⟨⟨_, instruction⟩, isKept, rfl, same⟩ := (done.isInstruction_iff node i.offset).mp stands
  have one : instruction = i := List.inj_on_of_nodup_map (instructions_offsets_nodup done.known)
    (done.mem_instructions isKept) member same
  rwa [← one]

/-- An instruction with operands has a node. -/
private theorem kept_of_input
    (done : b.Finished settings (fun _ => False) stream entries kept pairs g)
    {i : Instruction String} (member : i ∈ instructions stream)
    (input : ExecPart.input pin operand ∈ i.expr.execParts settings) : ∃ k ∈ kept, k.instruction = i := by
  rcases done.sifts.kept_or_folded member with isKept | ⟨target, pair⟩
  · exact List.mem_map.mp isKept
  · obtain ⟨j, inStream, same, folded⟩ := done.sifts.mem_of_pair pair
    have one : j = i :=
      List.inj_on_of_nodup_map (instructions_offsets_nodup done.known) inStream member same
    rw [one] at folded
    exact absurd input (no_input_of_folded folded)

/-- An operand of an instruction is fed by the node that the table has for it. -/
theorem supply (done : b.Finished settings (fun _ => False) stream entries kept pairs g)
    {k : Kept} (member : k ∈ kept) (input : ExecPart.input pin operand ∈ k.parts settings) :
    operand.known = true ∧
      ∃ source, g.dataSources k.node pin = [source] ∧ Listed b.values operand source := by
  obtain ⟨sound, presented⟩ := done.equipped member
  exact ⟨sound.known pin operand input, presented.fed pin operand input⟩

/-- What a listed operand is made of is fed by the node that the table has for it. -/
theorem feed (done : b.Finished settings (fun _ => False) stream entries kept pairs g)
    (known : e.known = true) (listed : Listed b.values e id) {shape : ValueShape ValueTree}
    (own : e.valueTree settings.mode = .node e shape)
    (input : ValuePart.operand pin (operand.valueTree settings.mode) ∈ shape.parts) :
    operand.known = true ∧
      ∃ source, g.dataSources id pin = [source] ∧ Listed b.values operand source := by
  obtain ⟨_, tree, sound⟩ := valueTree_of_known settings.mode known
  rw [own] at tree
  cases tree
  obtain ⟨_, wired, dressed⟩ := done.records.shares.wired_of_listed known listed not_false
  rw [own] at wired
  cases wired
  obtain ⟨part, partKnown, same⟩ := sound.fed pin _ input
  obtain ⟨partShape, partTree, _⟩ := valueTree_of_known settings.mode partKnown
  rw [partTree] at same
  obtain ⟨rfl, _⟩ := valueTree_fed same
  obtain ⟨source, only, stands⟩ := dressed.fed pin _ input
  rw [partTree] at stands
  exact ⟨partKnown, source, (done.connected.sources id pin).trans only, stands⟩

/-- The value of an operand is the node that the table has for it. -/
theorem listed_of_valueOf
    (done : b.Finished job.settings (fun _ => False) job.stream entries kept pairs g)
    (value : g.ValueOf job e id) : e.known = true ∧ Listed b.values e id := by
  induction value with
  | supplied member stands input feeds =>
    have isKept := done.kept_of_stands member stands
    obtain ⟨known, source, only, listed⟩ := done.supply isKept input
    rw [only] at feeds
    rw [List.mem_singleton.mp feeds]
    exact ⟨known, listed⟩
  | fed value own input feeds ih =>
    obtain ⟨known, source, only, listed⟩ := done.feed ih.1 ih.2 own input
    rw [only] at feeds
    rw [List.mem_singleton.mp feeds]
    exact ⟨known, listed⟩

/-- Whatever an operand with a value is made of has a value. -/
private theorem valueOf_of_reaches
    (done : b.Finished job.settings (fun _ => False) job.stream entries kept pairs g)
    {tree : ValueTree} (reached : tree.Reaches e) (own : operand.valueTree job.settings.mode = tree)
    (value : g.ValueOf job operand id) : ∃ id, g.ValueOf job e id := by
  induction reached generalizing operand id with
  | own =>
    obtain ⟨rfl, _⟩ := valueTree_fed own
    exact ⟨id, value⟩
  | input member reached ih =>
    obtain ⟨rfl, fed⟩ := valueTree_fed own
    obtain ⟨part, rfl⟩ := fed _ _ member
    obtain ⟨known, listed⟩ := done.listed_of_valueOf value
    obtain ⟨_, source, only, _⟩ := done.feed known listed own member
    exact ih rfl (.fed value own member (by rw [only]; exact List.mem_singleton_self _))

/-- Whatever the operands of the stream are made of has one value. -/
theorem exists_valueOf
    (done : b.Finished job.settings (fun _ => False) job.stream entries kept pairs g)
    (reached : ReachedFrom job.settings.mode job.operands e) : ∃! id, g.ValueOf job e id := by
  obtain ⟨operand, asked, reached⟩ := reached
  obtain ⟨e', inStream, pin, input⟩ := Job.mem_operands.mp asked
  obtain ⟨position, standing⟩ := List.mem_iff_getElem?.mp inStream
  have listed := instructions_getElem? job.stream position
  rw [standing, Option.map_some] at listed
  have member := List.mem_of_getElem? listed
  obtain ⟨k, isKept, same⟩ := done.kept_of_input member input
  have asks : ExecPart.input pin operand ∈ k.parts job.settings := by
    rw [Kept.parts, same]
    exact input
  obtain ⟨_, source, only, _⟩ := done.supply isKept asks
  have stands : g.IsInstruction k.node (startOf job.stream position) :=
    (done.isInstruction_iff _ _).mpr ⟨k, isKept, rfl, by rw [same]⟩
  have supplied : g.ValueOf job operand source :=
    .supplied member stands input (by rw [only]; exact List.mem_singleton_self _)
  obtain ⟨id, value⟩ := done.valueOf_of_reaches reached rfl supplied
  refine ⟨id, value, fun other value' => ?_⟩
  have shares := done.records.shares
  exact (shares.node_eq_iff (done.listed_of_valueOf value').2 (done.listed_of_valueOf value).2).mpr rfl

/-- The node of an entry that reads a variable shows the short name of the variable. -/
private theorem note_of_entry
    (done : b.Finished settings (fun _ => False) stream entries kept pairs g)
    (entry : (e, id) ∈ b.values) {name : String} (reads : e.reads? settings.mode = some name) :
    ∃ node, g.node? id = some node ∧ node.kind = .value ∧ shortName name ∈ node.annotations := by
  obtain ⟨shape, own, dressed⟩ := done.records.shares.wired e id entry not_false
  exact ⟨_, (done.node?_eq id).trans dressed.node, rfl, note_of_reads own reads⟩

end Build.Finished

/-- Connecting the outputs leaves the index alone. -/
theorem variableReaders_resolve (table : JumpTable) (offsets : OffsetTable)
    (nodeAt : Nat → Option NodeId) (g : Graph) :
    (table.resolve offsets nodeAt g).1.variableReaders = g.variableReaders := by
  obtain ⟨_, _, gains, _⟩ := table.queue_gains offsets nodeAt table.obligations (g, 0)
  exact gains.readers

/-- The index of variables is exact. A known stream has a graph in which whatever its operands are
made of has one value. A node is listed under a variable exactly when it is the value of an operand
that reads the variable, by itself or by the member that is merged into it. The index is tidy, no node
is listed under two variables, and each shows the short name of its variable. -/
theorem variableIndex_exact (job : Job) (known : ∀ e ∈ job.stream, e.known = true) :
    ∃ g, job.graph = .ok g ∧
      (∀ e, ReachedFrom job.settings.mode job.operands e → ∃! id, g.ValueOf job e id) ∧
      (∀ name id, id ∈ g.readers name ↔
        ∃ e, g.ValueOf job e id ∧ e.reads? job.settings.mode = some name) ∧
      g.TidyIndex ∧
      (∀ name name' id, id ∈ g.readers name → id ∈ g.readers name' → name = name') ∧
      ∀ name, ∀ id ∈ g.readers name, ∃ node, g.node? id = some node ∧ node.kind = .value ∧
        shortName name ∈ node.annotations := by
  have blank : ({} : Build).Records job.settings (fun _ => False) [] [] [] :=
    .of_values (.empty _ fun _ => False) (.refl {})
  obtain ⟨offsets, b, kept, pairs, built, run, done, _⟩ :=
    job.run_of_known {} (addEntries_recorded job blank) known
  have start : ({} : Build).Catalogues job.settings.mode job.operands := ⟨.empty _, by simp⟩
  obtain ⟨indexed, reached⟩ := addStream_catalogues (addEntries_catalogues job start) run
  have index := variableReaders_resolve b.jumps offsets b.nodeAt? b.graph
  have graph := Job.finish_of_run built run
  generalize (b.jumps.resolve offsets b.nodeAt? b.graph).1 = g at done index graph
  have same := Graph.readers_congr index
  have shares := done.records.shares
  refine ⟨g, graph, fun e reached => done.exists_valueOf reached, fun name id => ⟨fun listed => ?_, ?_⟩,
    ⟨index ▸ indexed.tidy.distinct, index ▸ indexed.tidy.inhabited,
      fun name => same name ▸ indexed.tidy.single name⟩, ?_, fun name id listed => ?_⟩
  · rw [same] at listed
    obtain ⟨e, entry, reads⟩ := indexed.sound name id listed
    obtain ⟨other, value, _⟩ := done.exists_valueOf (reached _ entry)
    have one := (shares.node_eq_iff (done.listed_of_valueOf value).2 ⟨e, entry, rfl⟩).mpr rfl
    exact ⟨e, one ▸ value, reads⟩
  · rintro ⟨e, value, reads⟩
    obtain ⟨seen, entry, normal⟩ := (done.listed_of_valueOf value).2
    rw [← reads?_congr normal] at reads
    rw [same]
    exact (indexed.complete seen id name entry reads).resolve_right List.not_mem_nil
  · intro name name' id listed listed'
    rw [same] at listed listed'
    obtain ⟨e, entry, reads⟩ := indexed.sound name id listed
    obtain ⟨e', entry', reads'⟩ := indexed.sound name' id listed'
    cases List.inj_on_of_nodup_map shares.single entry entry' rfl
    exact Option.some.inj (reads.symm.trans reads')
  · rw [same] at listed
    obtain ⟨e, entry, reads⟩ := indexed.sound name id listed
    exact done.note_of_entry entry reads

/-- A variable that an assignment reads by itself and by the member of an access, through two indices
with one name. -/
theorem variableIndex_exact_member :
    let symbols : Symbols := SymbolTable.symbols
      { properties := ⟨[(3, "Graph.Counter"), (7, "Graph.Counter")]⟩ }
    let read (index : SymbolRef) : Expr SymbolRef := .atom (.readVariable .instanceMember index)
    let access : Expr SymbolRef :=
      .binary (.context .plain 0 1) (.atom (.marker .selfObject)) (read 7)
    let job : Job :=
      { settings := { mode := .pseudoBlueprint }
        stream := [.binary (.assign .object) access (read 3)].map symbols.resolve }
    (∀ e ∈ job.stream, e.known = true) ∧
      ∃ g merged plain, job.graph = .ok g ∧ g.ValueOf job (symbols.resolve access) merged ∧
        g.ValueOf job (symbols.resolve (read 3)) plain ∧ merged ∈ g.readers "Graph.Counter" ∧
        plain ∈ g.readers "Graph.Counter" := by
  intro symbols read access job
  have known : ∀ e ∈ job.stream, e.known = true := by
    simp [job, access, read, Expr.known, Atom.known]
  obtain ⟨g, graph, values, index, _⟩ := variableIndex_exact job known
  have target : symbols.resolve access ∈ job.operands :=
    Job.mem_operands.mpr ⟨_, List.mem_singleton_self _, "variable", .tail _ (.tail _ (.head _))⟩
  have value : symbols.resolve (read 3) ∈ job.operands :=
    Job.mem_operands.mpr
      ⟨_, List.mem_singleton_self _, "value", .tail _ (.tail _ (.tail _ (.head _)))⟩
  obtain ⟨merged, isMerged, _⟩ := values (symbols.resolve access) ⟨_, target, .own⟩
  obtain ⟨plain, isPlain, _⟩ := values (symbols.resolve (read 3)) ⟨_, value, .own⟩
  exact ⟨known, g, merged, plain, graph, isMerged, isPlain, (index _ _).mpr ⟨_, isMerged, rfl⟩,
    (index _ _).mpr ⟨_, isPlain, rfl⟩⟩

end ScriptFlow
