import ScriptFlow.Proofs.Flow.Continuations
import ScriptFlow.Proofs.Flow.Finish

/-! Both modes have the same control flow, but for what a merged member adds. The graphs differ in
their values, so in almost all of their ids, but not in what is folded: that is decided by the
aliases, which no value and no output changes. So the same instructions have nodes, outputs that
continue at one offset lead to the same instruction, and what remains is which outputs there are. -/
namespace ScriptFlow

/-- The settings in one of the modes. -/
def DecodeSettings.inMode (settings : DecodeSettings) (mode : GraphMode) : DecodeSettings :=
  { settings with mode }

/-- The same job in one of the modes. -/
def Job.inMode (job : Job) (mode : GraphMode) : Job :=
  { job with settings := job.settings.inMode mode }

/-- The outputs that an operation has besides `then`: the sides of a branch, the flow that is left
for later, and the resumption of a latent call. -/
inductive Expr.Branches (settings : DecodeSettings) : Expr String → String → Prop
  | whenTrue (target : UInt32) (condition : Expr String) :
    Branches settings (.unary (.jumpIfNot target) condition) "true"
  | whenFalse (target : UInt32) (condition : Expr String) :
    Branches settings (.unary (.jumpIfNot target) condition) "false"
  | first (address : UInt32) : Branches settings (.atom (.pushFlow address)) "first"
  | resumed (kind : CallKind) (target : String) (arguments : List (Expr String))
    (latent : settings.isLatent (shortName target) = true)
    (resumes : (resumeOffset? arguments).isSome = true) :
    Branches settings (.variadic (.call kind target) arguments) "later"
  | resumedVirtual (kind : VirtualKind) (name : String) (arguments : List (Expr String))
    (latent : settings.isLatent name = true)
    (resumes : (resumeOffset? arguments).isSome = true) :
    Branches settings (.variadic (.virtualCall kind name) arguments) "later"

/-! ### Aliases -/

namespace JumpTable

variable {table table' : JumpTable}

theorem canonical_congr (same : table.aliases = table'.aliases) (x : Nat) :
    table.canonical x = table'.canonical x := by
  have follows (steps x : Nat) : table.follow steps x = table'.follow steps x := by
    induction steps generalizing x with
    | zero => rfl
    | succ steps ih => simp only [follow, same, ih]
  rw [canonical, canonical, aliasCount, aliasCount, same]
  exact follows _ x

private theorem reaches_congr (same : table.aliases = table'.aliases) (x goal : Nat) :
    table.reaches x goal = table'.reaches x goal := by
  have visited (steps x : Nat) : table.visits goal steps x = table'.visits goal steps x := by
    induction steps generalizing x with
    | zero => rfl
    | succ steps ih => simp only [visits, same, ih]
  rw [reaches, reaches, aliasCount, aliasCount, same]
  exact visited _ x

/-- Whether a pair is merged, and what becomes of the aliases, is a matter of the aliases. -/
theorem merge?_congr (same : table.aliases = table'.aliases) (source target : Nat) :
    (table.merge? source target).map (·.aliases) = (table'.merge? source target).map (·.aliases) := by
  unfold merge?
  rw [reaches_congr same, canonical_congr same, same]
  split <;> rfl

end JumpTable

section Aliases

variable {settings : DecodeSettings} {b b' after after' : Build}

/-- Giving an instruction its parts folds nothing. -/
private theorem addParts_aliases {mode : GraphMode} {id : NodeId} {offset next : Nat}
    {parts : List ExecPart} (run : Build.addParts mode id offset next parts b = .ok after) :
    after.jumps.aliases = b.jumps.aliases := by
  have flow (b : Build) (pin : String) (target : Nat) :
      (b.addFlow id pin target).jumps.aliases = b.jumps.aliases := by
    unfold Build.addFlow
    split <;> rfl
  induction parts generalizing b with
  | nil =>
    cases run
    rfl
  | cons part rest ih =>
    cases part with
    | enter =>
      have later := ih run
      exact later
    | next pin => exact (ih run).trans (flow b pin next)
    | jump pin target => exact (ih run).trans (flow b pin target)
    | input pin operand =>
      have kept := (b.onGraph (·.addPin id pin .input .data)).value_keeps mode operand
      rw [Build.addParts] at run
      rcases asked : (b.onGraph (·.addPin id pin .input .data)).value mode operand with
        ⟨outcome, reached⟩
      rw [asked] at kept run
      cases outcome with
      | error gap => cases run
      | ok value => exact (ih run).trans (congrArg JumpTable.aliases kept.jumps)
    | malformedLatent function =>
      have later := ih run
      exact later

theorem addInstruction_aliases {position offset size : Nat} {e : Expr String}
    (run : b.addInstruction settings position offset size e = .ok after) :
    after.jumps.aliases = b.jumps.aliases := by
  simp only [Build.addInstruction] at run
  split at run
  · cases run
  · rename_i built parts
    cases run
    have added := addParts_aliases parts
    cases ((e.shown settings.mode).execShape settings).title with
    | some title => exact added
    | none => exact added

private theorem foldTarget?_inMode (settings : DecodeSettings) (mode : GraphMode)
    (offset size : Nat)
    (e : Expr String) :
    Build.foldTarget? (settings.inMode mode) offset size e =
      Build.foldTarget? settings offset size e := rfl

/-- One step in each mode: the instruction is folded in both or in neither. -/
private theorem addOrFold_aliases {mode mode' : GraphMode} {position offset size : Nat}
    {e : Expr String}
    (run : b.addOrFold (settings.inMode mode) position offset size e = .ok after)
    (run' : b'.addOrFold (settings.inMode mode') position offset size e = .ok after')
    (same : b.jumps.aliases = b'.jumps.aliases) : after.jumps.aliases = after'.jumps.aliases := by
  rw [Build.addOrFold, foldTarget?_inMode] at run run'
  cases folds : Build.foldTarget? settings offset size e with
  | none =>
    rw [folds] at run run'
    rw [addInstruction_aliases run, addInstruction_aliases run', same]
  | some target =>
    have merges := JumpTable.merge?_congr same offset target
    simp only [folds] at run run'
    cases merged : b.jumps.merge? offset target with
    | none =>
      rw [merged, Option.map_none, eq_comm, Option.map_eq_none_iff] at merges
      simp only [merged, merges] at run run'
      have kept := addInstruction_aliases run
      have kept' := addInstruction_aliases run'
      exact kept.trans (same.trans kept'.symm)
    | some jumps =>
      rw [merged, Option.map_some, eq_comm, Option.map_eq_some_iff] at merges
      obtain ⟨jumps', merged', aliases⟩ := merges
      simp only [merged, merged'] at run run'
      cases run
      cases run'
      exact aliases.symm

/-- The same instructions of a stream are folded in both modes. -/
private theorem addStream_aliases {mode mode' : GraphMode} {position offset : Nat}
    {stream : List (Expr String)}
    (run : Build.addStream (settings.inMode mode) position offset stream b = .ok after)
    (run' : Build.addStream (settings.inMode mode') position offset stream b' = .ok after')
    (same : b.jumps.aliases = b'.jumps.aliases) : after.jumps.aliases = after'.jumps.aliases := by
  induction stream generalizing b b' position offset with
  | nil =>
    cases run
    cases run'
    exact same
  | cons e rest ih =>
    rw [Build.addStream] at run run'
    cases sized : e.size with
    | error gap => simp [sized, bind, Except.bind] at run
    | ok size =>
      simp only [sized, bind, Except.bind] at run run'
      split at run
      · cases run
      · rename_i next step
        split at run'
        · cases run'
        · rename_i next' step'
          exact ih run run' (addOrFold_aliases step step' same)

end Aliases

/-! ### Two builds with the same aliases -/

section TwoBuilds

variable {settings settings' : DecodeSettings} {isOpen : NodeId → Prop}
  {stream : List (Expr String)} {entries : List Entry} {kept kept' : List Kept}
  {pairs pairs' : List (Nat × Nat)} {b b' : Build} {g g' : Graph} {s s' : NodeId}
  {node node' : Node}

/-- The instructions with nodes are those that are no aliases. -/
theorem Build.Finished.kept_iff (done : b.Finished settings isOpen stream entries kept pairs g)
    {i : Instruction String} (member : i ∈ instructions stream) :
    (∃ k ∈ kept, k.instruction = i) ↔ b.jumps.aliases.get? i.offset = none := by
  rw [done.records.accounts.free]
  constructor
  · rintro ⟨k, isKept, rfl⟩
    exact done.sifts.not_folded (instructions_offsets_nodup done.known) (List.mem_map_of_mem isKept)
  · intro free
    rcases done.sifts.kept_or_folded member with isKept | ⟨target, pair⟩
    · exact List.mem_map.mp isKept
    · exact absurd pair (free target)

/-- With the same aliases the same instructions have nodes. -/
theorem kept_of_aliases (done : b.Finished settings isOpen stream entries kept pairs g)
    (done' : b'.Finished settings' isOpen stream entries kept' pairs' g')
    (same : b.jumps.aliases = b'.jumps.aliases) {k : Kept} (member : k ∈ kept) :
    ∃ k' ∈ kept', k'.instruction = k.instruction := by
  have standing := done.mem_instructions member
  rw [done'.kept_iff standing, ← same, ← done.kept_iff standing]
  exact ⟨k, member, rfl⟩

theorem hasInstruction_of_aliases (done : b.Finished settings isOpen stream entries kept pairs g)
    (done' : b'.Finished settings' isOpen stream entries kept' pairs' g')
    (same : b.jumps.aliases = b'.jumps.aliases) {offset : Nat} (present : g.HasInstruction offset) :
    g'.HasInstruction offset := by
  obtain ⟨k, member, rfl⟩ := (done.hasInstruction_iff offset).mp present
  obtain ⟨k', member', sameInstruction⟩ := kept_of_aliases done done' same member
  exact (done'.hasInstruction_iff _).mpr ⟨k', member', by rw [sameInstruction]⟩

/-- With the same aliases every entry and every instruction of one graph has its match in the
other. -/
theorem exists_match (done : b.Finished settings isOpen stream entries kept pairs g)
    (done' : b'.Finished settings' isOpen stream entries kept' pairs' g')
    (same : b.jumps.aliases = b'.jumps.aliases) (found : g.node? s = some node)
    (flows : node.kind ≠ .value) : ∃ s' node', g.Matches g' s s' node node' := by
  rcases done.recorded found flows with ⟨start, member, rfl, rfl⟩ | ⟨k, member, rfl, kind, _⟩
  · exact ⟨start.node, start.shown, found, done'.entry_node member, flows, rfl, fun _ => rfl⟩
  · obtain ⟨k', member', sameInstruction⟩ := kept_of_aliases done done' same member
    obtain ⟨node', found', kind', _⟩ := done'.kept_node member'
    refine ⟨k'.node, node', found, found', flows, ?_, ?_⟩
    · rw [kind, kind', sameInstruction]
    · simp [kind]

/-- With the same aliases, outputs that continue at one offset lead to one instruction or both
nowhere. -/
theorem flow_of_aliases (done : b.Finished settings isOpen stream entries kept pairs g)
    (done' : b'.Finished settings' isOpen stream entries kept' pairs' g')
    (same : b.jumps.aliases = b'.jumps.aliases) {p : String} {x : Nat}
    (owed : ⟨s, p, x⟩ ∈ owedBy settings entries kept)
    (owed' : ⟨s', p, x⟩ ∈ owedBy settings' entries kept') :
    (∀ offset, (∃ t, g.execTarget? s p = some t ∧ g.IsInstruction t offset) ↔
      ∃ t, g'.execTarget? s' p = some t ∧ g'.IsInstruction t offset) ∧
    (g.execTarget? s p = none ↔ g'.execTarget? s' p = none) := by
  have ends := JumpTable.canonical_congr same x
  have present (offset : Nat) : g.HasInstruction offset ↔ g'.HasInstruction offset :=
    ⟨hasInstruction_of_aliases done done' same, hasInstruction_of_aliases done' done same.symm⟩
  constructor
  · intro offset
    have leads := done.leads_iff owed offset
    have leads' := done'.leads_iff owed' offset
    rw [leads, leads', present]
    simp only [ends]
  · have nowhere := done.leads_nowhere_iff owed
    have nowhere' := done'.leads_nowhere_iff owed'
    rw [nowhere, nowhere', present]
    simp only [ends]

end TwoBuilds

/-! ### Outputs in the two modes -/

/-- An operation by itself goes on at `then` or branches. -/
private theorem branches_of_outputs {settings : DecodeSettings} {next : Nat} {e : Expr String}
    {flow : String × Nat} (member : flow ∈ e.outputs settings next) :
    flow.1 = thenPin ∨ e.Branches settings flow.1 := by
  have resumes {function : String} {arguments : List (Expr String)}
      (member : flow ∈ (thenPin, next) :: resumption settings function arguments) :
      flow.1 = thenPin ∨ flow.1 = "later" ∧ settings.isLatent function = true ∧
        (resumeOffset? arguments).isSome = true := by
    unfold resumption at member
    rcases List.mem_cons.mp member with rfl | member
    · exact .inl rfl
    · split at member
      · rename_i latent
        obtain ⟨offset, found, rfl⟩ := Option.map_eq_some_iff.mp (Option.mem_toList.mp member)
        exact .inr ⟨rfl, latent, by simp [found]⟩
      · cases member
  unfold Expr.outputs at member
  split at member
  case h_1 | h_2 | h_3 | h_4 => cases member
  case h_5 | h_10 =>
    rw [List.mem_singleton.mp member]
    exact .inl rfl
  case h_6 address =>
    simp only [List.mem_cons, List.not_mem_nil, or_false] at member
    rcases member with rfl | rfl
    · exact .inr (.first address)
    · exact .inl rfl
  case h_7 target condition =>
    simp only [List.mem_cons, List.not_mem_nil, or_false] at member
    rcases member with rfl | rfl
    · exact .inr (.whenTrue target condition)
    · exact .inr (.whenFalse target condition)
  case h_8 kind target arguments =>
    rcases resumes member with same | ⟨same, latent, found⟩
    · exact .inl same
    · rw [same]
      exact .inr (.resumed kind target arguments latent found)
  case h_9 kind name arguments =>
    rcases resumes member with same | ⟨same, latent, found⟩
    · exact .inl same
    · rw [same]
      exact .inr (.resumedVirtual kind name arguments latent found)

/-- An instruction continues in one mode as in the other, unless it is an access that is merged into
its member: by itself that only goes on with the next instruction. -/
theorem continuations_cases (settings : DecodeSettings) (next : Nat) (e : Expr String) :
    e.continuations (settings.inMode .pseudoBlueprint) next =
        e.continuations (settings.inMode .plain) next ∨
      ∃ kind skip field object member, e = .binary (.context kind skip field) object member ∧
        e.continuations (settings.inMode .plain) next = [(thenPin, next)] ∧
        e.continuations (settings.inMode .pseudoBlueprint) next =
          (thenPin, next) :: (member.outputs settings next).filter (·.1 ≠ thenPin) := by
  cases e with
  | binary op object member =>
    cases op with
    | context kind skip field => exact .inr ⟨kind, skip, field, object, member, rfl, rfl, rfl⟩
    | _ => exact .inl rfl
  | _ => exact .inl rfl

/-- Merging keeps the outputs that an instruction has by itself, -/
private theorem continuations_subset (settings : DecodeSettings) (next : Nat) (e : Expr String) :
    e.continuations (settings.inMode .plain) next ⊆
      e.continuations (settings.inMode .pseudoBlueprint) next := by
  rcases continuations_cases settings next e with same | ⟨_, _, _, _, _, _, plain, merged⟩
  · rw [same]
    exact List.Subset.refl _
  · rw [plain, merged]
    exact List.cons_subset_cons _ (List.nil_subset _)

/-- and adds the outputs at which the member of an access branches. -/
private theorem branches_of_merged {settings : DecodeSettings} {next : Nat} {e : Expr String}
    {flow : String × Nat}
    (merged : flow ∈ e.continuations (settings.inMode .pseudoBlueprint) next)
    (extra : flow.1 ∉ (e.continuations (settings.inMode .plain) next).map (·.1)) :
    ∃ kind skip field object member, e = .binary (.context kind skip field) object member ∧
      member.Branches settings flow.1 := by
  rcases continuations_cases settings next e with
    same | ⟨kind, skip, field, object, member, rfl, plain, all⟩
  · rw [same] at merged
    exact absurd (List.mem_map_of_mem merged) extra
  · rw [plain] at extra
    rw [all] at merged
    rcases List.mem_cons.mp merged with rfl | fromMember
    · exact absurd (List.mem_singleton_self _) extra
    · obtain ⟨own, other⟩ := List.mem_filter.mp fromMember
      have notThen : flow.1 ≠ thenPin := by simpa using other
      exact ⟨kind, skip, field, object, member, rfl,
        (branches_of_outputs own).resolve_left notThen⟩

/-! ### Nodes in the two modes -/

section Nodes

variable {settings : DecodeSettings} {isOpen : NodeId → Prop} {stream : List (Expr String)}
  {entries : List Entry} {kept kept' : List Kept} {pairs pairs' : List (Nat × Nat)} {b b' : Build}
  {p m : Graph} {s s' : NodeId} {node node' : Node} {pin : String}

/-- An output of a node by itself is owed in both modes, and continues at the same offset. -/
private theorem owed_in_both
    (plain : b.Finished (settings.inMode .plain) isOpen stream entries kept pairs p)
    (merged : b'.Finished (settings.inMode .pseudoBlueprint) isOpen stream entries kept' pairs' m)
    (matched : p.Matches m s s' node node') (output : ⟨pin, .output, .execution⟩ ∈ node.pins) :
    ∃ x, ⟨s, pin, x⟩ ∈ owedBy (settings.inMode .plain) entries kept ∧
      ⟨s', pin, x⟩ ∈ owedBy (settings.inMode .pseudoBlueprint) entries kept' := by
  rcases matched.place plain merged with
    ⟨start, member, rfl, rfl, rfl, _⟩ | ⟨k, member, k', member', rfl, rfl, same, pins, _, _⟩
  · cases List.mem_singleton.mp output
    exact ⟨start.start, owed_of_entry member, owed_of_entry member⟩
  · rw [pins, mem_execPins_output k.instruction.next] at output
    obtain ⟨x, flow⟩ := output
    refine ⟨x, owed_of_flow member flow, owed_of_flow member' ?_⟩
    rw [Kept.parts, flowsOf_execParts] at flow ⊢
    rw [same]
    exact continuations_subset settings _ _ flow

/-- An output that a node has only when members are merged is one at which the member of an access
branches. -/
private theorem branches_of_extra
    (plain : b.Finished (settings.inMode .plain) isOpen stream entries kept pairs p)
    (merged : b'.Finished (settings.inMode .pseudoBlueprint) isOpen stream entries kept' pairs' m)
    (matched : p.Matches m s s' node node') (output : ⟨pin, .output, .execution⟩ ∈ node'.pins)
    (extra : ⟨pin, .output, .execution⟩ ∉ node.pins) :
    ∃ i ∈ instructions stream, node'.kind = .instruction i.offset ∧
      ∃ kind skip field object member, i.expr = .binary (.context kind skip field) object member ∧
        member.Branches settings pin := by
  rcases matched.place plain merged with
    ⟨start, _, _, _, rfl, rfl⟩ | ⟨k, _, k', member', rfl, rfl, same, pins, pins', kind⟩
  · exact absurd output extra
  · refine ⟨k'.instruction, merged.mem_instructions member', kind, ?_⟩
    rw [pins', mem_execPins_output k'.instruction.next, Kept.parts, flowsOf_execParts] at output
    rw [pins, mem_execPins_output k.instruction.next, Kept.parts, flowsOf_execParts, ← same] at extra
    obtain ⟨x, flow⟩ := output
    refine branches_of_merged flow fun listed => extra ?_
    obtain ⟨⟨name, y⟩, member, rfl⟩ := List.mem_map.mp listed
    exact ⟨y, member⟩

end Nodes

/-- Both modes have the same control flow, up to the outputs that a merged member adds. A known
stream has a graph in each mode; the entries are the same, and so are the offsets of the
instructions. Every output that an entry or an instruction has in the plain mode it has in the other
mode too, leading to the same instruction or nowhere in both. Any further output is one at which the
member of a context access branches. -/
theorem modes_share_flow (job : Job) (known : ∀ e ∈ job.stream, e.known = true) :
    ∃ p m, (job.inMode .plain).graph = .ok p ∧ (job.inMode .pseudoBlueprint).graph = .ok m ∧
      p.entryNodes = m.entryNodes ∧
      (∀ offset, p.HasInstruction offset ↔ m.HasInstruction offset) ∧
      (∀ g ∈ [p, m], ∀ edge ∈ g.edges, edge.kind = .execution →
        g.execTarget? edge.source edge.sourcePin = some edge.target) ∧
      (∀ s node, p.node? s = some node → node.kind ≠ .value →
        ∃ s' node', p.Matches m s s' node node') ∧
      (∀ s' node', m.node? s' = some node' → node'.kind ≠ .value →
        ∃ s node, p.Matches m s s' node node') ∧
      ∀ s s' node node', p.Matches m s s' node node' →
        (∀ pin, ⟨pin, .output, .execution⟩ ∈ node.pins →
          ⟨pin, .output, .execution⟩ ∈ node'.pins ∧
          (∀ offset, (∃ t, p.execTarget? s pin = some t ∧ p.IsInstruction t offset) ↔
            ∃ t, m.execTarget? s' pin = some t ∧ m.IsInstruction t offset) ∧
          (p.execTarget? s pin = none ↔ m.execTarget? s' pin = none)) ∧
        ∀ pin, ⟨pin, .output, .execution⟩ ∈ node'.pins → ⟨pin, .output, .execution⟩ ∉ node.pins →
          ∃ i ∈ instructions job.stream, node'.kind = .instruction i.offset ∧
            ∃ kind skip field object member,
              i.expr = .binary (.context kind skip field) object member ∧
                member.Branches job.settings pin := by
  obtain ⟨entries, entered⟩ := addEntries_records job {}
  have plainEntries := entered (job.settings.inMode .plain) _
    (.of_values (.empty _ fun _ => False) (.refl _))
  have mergedEntries := entered (job.settings.inMode .pseudoBlueprint) _
    (.of_values (.empty _ fun _ => False) (.refl _))
  obtain ⟨offsets, b, kept, pairs, built, run, plain, grows⟩ :=
    (job.inMode .plain).run_of_known {} plainEntries known
  obtain ⟨offsets', b', kept', pairs', built', run', merged, grows'⟩ :=
    (job.inMode .pseudoBlueprint).run_of_known {} mergedEntries known
  -- Entries are made alike in both modes, so both runs start from one build.
  have same : b.jumps.aliases = b'.jumps.aliases := addStream_aliases run run' rfl
  refine ⟨_, _, Job.finish_of_run built run, Job.finish_of_run built' run', ?_, fun offset => ?_,
    ?_, fun s node found flows => ?_, fun s' node' found flows => ?_,
    fun s s' node node' matched => ⟨fun pin output => ?_, fun pin output extra => ?_⟩⟩
  · exact (plain.entryNodes plainEntries grows).trans (merged.entryNodes mergedEntries grows').symm
  · exact ⟨hasInstruction_of_aliases plain merged same,
      hasInstruction_of_aliases merged plain same.symm⟩
  · simp only [List.mem_cons, List.not_mem_nil, or_false]
    rintro g (rfl | rfl)
    · exact plain.connected.single
    · exact merged.connected.single
  · exact exists_match plain merged same found flows
  · obtain ⟨s, node, matched⟩ := exists_match merged plain same.symm found flows
    exact ⟨s, node, matched.symm⟩
  · obtain ⟨x, owed, owed'⟩ := owed_in_both plain merged matched output
    obtain ⟨shown, found, _, output'⟩ := merged.output_of_owed owed'
    cases found.symm.trans matched.found'
    exact ⟨output', flow_of_aliases plain merged same owed owed'⟩
  · exact branches_of_extra plain merged matched output extra

/-- A branch that is the member of an access, before a tracepoint that is folded away. -/
theorem modes_share_flow_branch :
    let object : Expr String := .atom (.marker .selfObject)
    let job : Job :=
      { settings := { foldTracepoints := true }
        stream := [.binary (.context .failSilent 0 "Actor") object (.unary (.jumpIfNot 0) object),
          .atom (.marker .tracepoint), .atom (.marker .endOfScript)]
        entry := some "Main" }
    (∀ e ∈ job.stream, e.known = true) ∧
      ∃ p m, (job.inMode .plain).graph = .ok p ∧ (job.inMode .pseudoBlueprint).graph = .ok m ∧
        p.entryNodes = m.entryNodes ∧
        (p.node? 1).map (·.outputs) = some [⟨thenPin, .output, .execution⟩] ∧
        (m.node? 1).map (·.outputs) = some [⟨thenPin, .output, .execution⟩,
          ⟨"true", .output, .execution⟩, ⟨"false", .output, .execution⟩] ∧
        p.execTarget? 1 thenPin = some 4 ∧ p.IsInstruction 4 21 ∧
        ∃ t, m.execTarget? 1 thenPin = some t ∧ m.IsInstruction t 21 := by
  intro object job
  have known : ∀ e ∈ job.stream, e.known = true := by
    simp [job, object, Expr.known, Atom.known]
  obtain ⟨p, m, plain, merged, entries, _, _, _, _, flow⟩ := modes_share_flow job known
  have shown : (((job.inMode .plain).graph.toOption.bind (·.node? 1)).map
      fun node => (node.kind, node.outputs)) =
        some (.instruction 0, [⟨thenPin, .output, .execution⟩]) := by
    subst job object
    decide
  have shown' : (((job.inMode .pseudoBlueprint).graph.toOption.bind (·.node? 1)).map
      fun node => (node.kind, node.outputs)) =
        some (.instruction 0, [⟨thenPin, .output, .execution⟩,
          ⟨"true", .output, .execution⟩, ⟨"false", .output, .execution⟩]) := by
    subst job object
    decide
  have edge : ((job.inMode .plain).graph.toOption.bind (·.execTarget? 1 thenPin)) = some 4 := by
    subst job object
    decide
  have last : (((job.inMode .plain).graph.toOption.bind (·.node? 4)).map (·.kind)) =
      some (.instruction 21) := by
    subst job object
    decide
  rw [plain] at shown edge last
  rw [merged] at shown'
  obtain ⟨node, found, isNode⟩ := Option.map_eq_some_iff.mp shown
  obtain ⟨node', found', isNode'⟩ := Option.map_eq_some_iff.mp shown'
  obtain ⟨kind, outputs⟩ := Prod.mk.inj isNode
  obtain ⟨kind', outputs'⟩ := Prod.mk.inj isNode'
  have stands : p.IsInstruction 4 21 := Option.map_eq_some_iff.mp last
  have matched : p.Matches m 1 1 node node' :=
    ⟨found, found', by simp [kind], kind.trans kind'.symm, fun _ => rfl⟩
  have output : ⟨thenPin, .output, .execution⟩ ∈ node.pins := by
    have listed : (⟨thenPin, .output, .execution⟩ : Pin) ∈ node.outputs := by simp [outputs]
    exact List.mem_of_mem_filter listed
  obtain ⟨_, leads, _⟩ := (flow 1 1 node node' matched).1 thenPin output
  exact ⟨known, p, m, plain, merged, entries, Option.map_eq_some_iff.mpr ⟨node, found, outputs⟩,
    Option.map_eq_some_iff.mpr ⟨node', found', outputs'⟩, edge, stands,
    (leads 21).mp ⟨4, edge, stands⟩⟩

end ScriptFlow
