import ScriptFlow.Proofs.Flow.Continuations
import ScriptFlow.Proofs.Flow.Finish

/-! What is reported about an output. While a stream is walked, nothing is said about where outputs
lead; that comes last, when the pending jumps are connected. A remark on a jump starts with the pin
and the node that it is about, and since the names of outputs hold no quotation mark, it can be told
from the remarks on all other outputs. So the remarks on an output that is owed are that of its own
jump, if it does not land, and nothing else. -/
namespace ScriptFlow

/-- Whether a report is about the connection of an output. -/
def DiagnosticCode.ofJump : DiagnosticCode → Bool
  | .danglingOffset | .noExecutionNode | .pinTaken => true
  | .aliasCycle | .malformedLatent | .negativeEntry | .unmodeled => false

/-- Whether a report about a connection names an output. -/
def Diagnostic.concerns (d : Diagnostic) (pin : String) (node : NodeId) : Bool :=
  (Diagnostic.pinOf pin node ++ " ").toList.isPrefixOf d.message.toList

namespace Graph

/-- What was reported under some codes, in order. -/
def reports (g : Graph) (about : DiagnosticCode → Bool) : List Diagnostic :=
  g.diagnostics.toList.filter fun d => about d.code

/-- What was reported about the connection of an output. -/
def warnings (g : Graph) (pin : String) (node : NodeId) : List Diagnostic :=
  (g.reports DiagnosticCode.ofJump).filter (·.concerns pin node)

variable {about : DiagnosticCode → Bool}

theorem reports_diagnose (g : Graph) {d : Diagnostic} (silent : about d.code = false) :
    (g.diagnose d).reports about = g.reports about := by
  simp [reports, diagnose, silent]

@[simp] theorem reports_addPin (g : Graph) (id : NodeId) (name : String) (direction : Direction)
    (kind : FlowKind) : (g.addPin id name direction kind).reports about = g.reports about := by
  rw [addPin_eq_modifyNode]
  rfl

end Graph

/-! ### Reports during the construction -/

section Construction

variable {about : DiagnosticCode → Bool} {b after : Build}

private theorem closeValue_reports (silent : about .unmodeled = false) (b : Build) (id : NodeId)
    (title : Option String) (token : String) :
    (b.closeValue id title token).graph.reports about = b.graph.reports about := by
  cases title with
  | some title => rfl
  | none => exact Graph.reports_diagnose (b.graph.markUnmodeled id) silent

/-- Placing values reports at most that a value has no shape. -/
private theorem place_reports (silent : about .unmodeled = false) (tree : ValueTree) (b : Build) :
    (tree.place b).2.graph.reports about = b.graph.reports about := by
  induction tree generalizing b with
  | gap opcode => rfl
  | node operand title token parts ih =>
    rw [ValueTree.place]
    split
    · rfl
    · rfl
    · have opened : (b.openValue operand).graph.reports about = b.graph.reports about := by
        rw [Build.openValue, Graph.reports_addPin]
        rfl
      have silentParts : Build.KeptByParts
          (fun c => c.graph.reports about = b.graph.reports about) b.graph.nextId := by
        refine ⟨?_, fun _ _ _ => id, fun _ _ => id, fun _ _ => id⟩
        intro c pin before
        exact (Graph.reports_addPin ..).trans before
      have placed := Build.placeParts_preserves silentParts
        (fun pin tree member c before => (ih pin tree member c).trans before) opened
      dsimp only
      rcases result : placeParts b.graph.nextId parts (b.openValue operand) with ⟨outcome, after⟩
      rw [result] at placed
      cases outcome with
      | error gap => exact placed
      | ok _ => exact (closeValue_reports silent after _ title token).trans placed

/-- Giving an instruction its parts reports at most that a value has no shape or that a latent call
does not say where it resumes. -/
private theorem addParts_reports (silent : about .unmodeled = false)
    (silentLatent : about .malformedLatent = false) {mode : GraphMode} {id : NodeId}
    {offset next : Nat} {parts : List ExecPart}
    (run : Build.addParts mode id offset next parts b = .ok after) :
    after.graph.reports about = b.graph.reports about := by
  have flow (b : Build) (pin : String) (target : Nat) :
      (b.addFlow id pin target).graph.reports about = b.graph.reports about := by
    rw [Build.addFlow_eq]
    exact Graph.reports_addPin ..
  induction parts generalizing b with
  | nil =>
    cases run
    rfl
  | cons part rest ih =>
    cases part with
    | enter => exact (ih run).trans (Graph.reports_addPin ..)
    | next pin => exact (ih run).trans (flow b pin next)
    | jump pin target => exact (ih run).trans (flow b pin target)
    | input pin operand =>
      have placed := place_reports silent (operand.valueTree mode)
        (b.onGraph (·.addPin id pin .input .data))
      rw [Build.onGraph_graph, Graph.reports_addPin] at placed
      rw [Build.addParts] at run
      rcases result : (b.onGraph (·.addPin id pin .input .data)).value mode operand with
        ⟨outcome, reached⟩
      rw [Build.value] at result
      rw [result] at placed
      rw [Build.value, result] at run
      cases outcome with
      | error gap => cases run
      | ok value => exact (ih run).trans placed
    | malformedLatent function => exact (ih run).trans (Graph.reports_diagnose b.graph silentLatent)

theorem addInstruction_reports (silent : about .unmodeled = false)
    (silentLatent : about .malformedLatent = false) {settings : DecodeSettings}
    {position offset size : Nat} {e : Expr String}
    (run : b.addInstruction settings position offset size e = .ok after) :
    after.graph.reports about = b.graph.reports about := by
  simp only [Build.addInstruction] at run
  split at run
  · cases run
  · rename_i built parts
    cases run
    have added := addParts_reports silent silentLatent parts
    have opened : (b.graph.addNode (Build.instructionLabel offset e.tokenName)
        (.instruction offset)).reports about = b.graph.reports about := rfl
    rw [← opened, ← added]
    cases ((e.shown settings.mode).execShape settings).title with
    | some title => rfl
    | none => exact Graph.reports_diagnose (built.graph.markUnmodeled b.graph.nextId) silent

/-- Walking a stream reports at most that a fold was refused, that an operation has no shape, or that
a latent call does not say where it resumes. -/
theorem addStream_silent (silent : about .unmodeled = false)
    (silentLatent : about .malformedLatent = false) (silentCycle : about .aliasCycle = false)
    {settings : DecodeSettings} {position offset : Nat} {stream : List (Expr String)}
    (run : Build.addStream settings position offset stream b = .ok after) :
    after.graph.reports about = b.graph.reports about := by
  refine addStream_preserves (fun c => c.graph.reports about = b.graph.reports about) ?_ ?_ ?_ rfl run
  · intro c next position offset size e before step
    exact (addInstruction_reports silent silentLatent step).trans before
  · intro c jumps before
    exact before
  · intro c offset target before
    exact (Graph.reports_diagnose c.graph silentCycle).trans before

/-- Walking a stream reports nothing about where outputs lead. -/
theorem addStream_reports {settings : DecodeSettings} {position offset : Nat}
    {stream : List (Expr String)}
    (run : Build.addStream settings position offset stream b = .ok after) :
    after.graph.reports DiagnosticCode.ofJump = b.graph.reports DiagnosticCode.ofJump :=
  addStream_silent rfl rfl rfl run

/-- Entering a function reports at most that an offset is negative. -/
theorem addEntries_reports (silent : about .negativeEntry = false) (job : Job) (b : Build) :
    (job.addEntries b).graph.reports about = b.graph.reports about := by
  refine addEntries_preserves (fun c => c.graph.reports about = b.graph.reports about) ?_ ?_ job rfl
  · intro c name start before
    rw [Build.addEntry, Graph.reports_addPin]
    exact before
  · intro c name entry start before
    exact (Graph.reports_diagnose c.graph silent).trans before

end Construction

/-! ### Which output a remark is about -/

/-- Up to a mark that occurs in neither of two beginnings, a prefix agrees with the whole. -/
private theorem eq_of_prefix_marked {α : Type} {mark : α} {first second rest others : List α}
    (unmarked : mark ∉ first) (unmarked' : mark ∉ second)
    (isPrefix : first ++ mark :: rest <+: second ++ mark :: others) :
    first = second ∧ rest <+: others := by
  induction first generalizing second with
  | nil =>
    cases second with
    | nil => exact ⟨rfl, (List.cons_prefix_cons.mp isPrefix).2⟩
    | cons a second =>
      have same := (List.cons_prefix_cons.mp isPrefix).1
      exact absurd (by simp [same]) unmarked'
  | cons a first ih =>
    cases second with
    | nil =>
      have same := (List.cons_prefix_cons.mp isPrefix).1
      exact absurd (by simp [same]) unmarked
    | cons c second =>
      obtain ⟨rfl, tails⟩ := List.cons_prefix_cons.mp isPrefix
      obtain ⟨rfl, agree⟩ := ih (fun member => unmarked (by simp [member]))
        (fun member => unmarked' (by simp [member])) tails
      exact ⟨rfl, agree⟩

/-- The quotation mark around a pin. -/
private def quotation : Char := Char.ofNat 39

private theorem quotation_not_mem {pin : String} (named : pin ∈ outputNames) :
    quotation ∉ pin.toList := by
  have all : ∀ pin ∈ outputNames, quotation ∉ pin.toList := by decide
  exact all pin named

private theorem blank_not_mem (n : Nat) : ' ' ∉ (natText n).toList := by
  intro member
  rw [natText, String.toList_ofList] at member
  have digit := Nat.isDigit_of_mem_toDigits (by omega) (by omega) member
  cases digit

/-- A message that starts with a pin and its node names that pin of that node and no other. -/
private theorem pinOf_prefix_iff {pin other : String} {node node' : NodeId} {rest : List Char}
    (named : pin ∈ outputNames) (named' : other ∈ outputNames) :
    (Diagnostic.pinOf pin node ++ " ").toList <+:
        (Diagnostic.pinOf other node').toList ++ ' ' :: rest ↔ other = pin ∧ node' = node := by
  have spelled (pin : String) (node : NodeId) (rest : List Char) :
      (Diagnostic.pinOf pin node).toList ++ ' ' :: rest =
        "pin '".toList ++ (pin.toList ++ quotation ::
          (" of node ".toList ++ ((natText node).toList ++ ' ' :: rest))) := by
    have closing : "' of node ".toList = quotation :: " of node ".toList := rfl
    simp [Diagnostic.pinOf, String.toList_append, closing]
  have whole : (Diagnostic.pinOf pin node ++ " ").toList =
      (Diagnostic.pinOf pin node).toList ++ ' ' :: [] := by
    rw [String.toList_append]
    rfl
  rw [whole, spelled, spelled, List.prefix_append_right_inj]
  constructor
  · intro isPrefix
    obtain ⟨samePin, rest⟩ :=
      eq_of_prefix_marked (quotation_not_mem named) (quotation_not_mem named') isPrefix
    rw [List.prefix_append_right_inj] at rest
    obtain ⟨sameNode, _⟩ := eq_of_prefix_marked (blank_not_mem node) (blank_not_mem node') rest
    exact ⟨(String.toList_inj.mp samePin).symm,
      (natText_injective (String.toList_inj.mp sameNode)).symm⟩
  · rintro ⟨rfl, rfl⟩
    exact ⟨rest, by simp⟩

/-- Where keys do not repeat, what is kept for the key of an item comes from that item. -/
theorem filter_filterMap_of_key {α β κ : Type} {key : α → κ} {made : α → Option β}
    {keep : β → Bool} {items : List α} (distinct : (items.map key).Nodup) {item : α}
    (member : item ∈ items)
    (own : ∀ other ∈ items, ∀ b, made other = some b → (keep b = true ↔ key other = key item)) :
    (items.filterMap made).filter keep = (made item).toList := by
  induction items with
  | nil => cases member
  | cons first rest ih =>
    obtain ⟨fresh, distinctRest⟩ := List.nodup_cons.mp distinct
    have ownRest := fun other otherMember => own other (List.mem_cons_of_mem _ otherMember)
    have head := own first (List.mem_cons_self ..)
    rw [List.filterMap_cons]
    rcases List.mem_cons.mp member with rfl | member
    · have none : (rest.filterMap made).filter keep = [] := by
        rw [List.filter_eq_nil_iff]
        intro b made kept
        obtain ⟨other, otherMember, isMade⟩ := List.mem_filterMap.mp made
        have same := (ownRest other otherMember b isMade).mp kept
        exact fresh (List.mem_map.mpr ⟨other, otherMember, same⟩)
      cases isMade : made item with
      | none => exact none
      | some b => simp [(head b isMade).mpr rfl, none]
    · have later := ih distinctRest member ownRest
      cases isMade : made first with
      | none => exact later
      | some b =>
        have dropped : ¬ keep b = true := fun kept =>
          fresh (List.mem_map.mpr ⟨item, member, ((head b isMade).mp kept).symm⟩)
        simp [dropped, later]

namespace JumpTable

variable {table : JumpTable} {offsets : OffsetTable} {nodeAt : Nat → Option NodeId}

/-- A remark on a jump is one of two, and starts with the output that it is about. -/
theorem remark?_spelled {o : Obligation} {d : Diagnostic}
    (remarked : table.remark? offsets nodeAt o = some d) :
    (d.code = .danglingOffset ∨ d.code = .noExecutionNode) ∧
      ∃ rest, d.message.toList = (Diagnostic.pinOf o.pin o.source).toList ++ ' ' :: rest := by
  unfold remark? at remarked
  split at remarked
  · cases remarked
  · cases remarked
    refine ⟨.inl rfl, ?_⟩
    simp [Diagnostic.danglingOffset, String.toList_append]
  · cases remarked
    refine ⟨.inr rfl, ?_⟩
    simp [Diagnostic.noExecutionNode, String.toList_append]

/-- The remark on a jump is about its output. -/
theorem remark?_concerns {o : Obligation} {d : Diagnostic}
    (remarked : table.remark? offsets nodeAt o = some d) (named : o.pin ∈ outputNames) {pin : String}
    (pinNamed : pin ∈ outputNames) (node : NodeId) :
    d.concerns pin node = true ↔ o.pin = pin ∧ o.source = node := by
  obtain ⟨_, rest, spelled⟩ := remark?_spelled remarked
  rw [Diagnostic.concerns, List.isPrefixOf_iff_prefix, spelled]
  exact pinOf_prefix_iff pinNamed named

/-- After resolving, what was reported about connections are the remarks on the jumps. -/
theorem resolve_reports {g : Graph} (quiet : g.reports DiagnosticCode.ofJump = [])
    (flowless : ∀ edge ∈ g.edges, edge.kind ≠ .execution)
    (distinct : (table.obligations.map fun o => (o.source, o.pin)).Nodup) :
    (table.resolve offsets nodeAt g).1.reports DiagnosticCode.ofJump =
      table.obligations.filterMap (table.remark? offsets nodeAt) := by
  obtain ⟨_, _, diagnostics⟩ := table.resolve_changes offsets nodeAt flowless distinct
  unfold Graph.reports at quiet ⊢
  rw [diagnostics, List.filter_append, quiet, List.nil_append, List.filter_eq_self]
  intro d remarked
  obtain ⟨o, _, isRemark⟩ := List.mem_filterMap.mp remarked
  rcases (remark?_spelled isRemark).1 with code | code
  · rw [code]
    rfl
  · rw [code]
    rfl

/-- After resolving, what was reported about an output that was owed is the remark on its jump, if
there is one. -/
theorem resolve_warnings {g : Graph} (quiet : g.reports DiagnosticCode.ofJump = [])
    (flowless : ∀ edge ∈ g.edges, edge.kind ≠ .execution)
    (distinct : (table.obligations.map fun o => (o.source, o.pin)).Nodup)
    (named : ∀ o ∈ table.obligations, o.pin ∈ outputNames) {o : Obligation}
    (member : o ∈ table.obligations) :
    (table.resolve offsets nodeAt g).1.warnings o.pin o.source =
      (table.remark? offsets nodeAt o).toList := by
  rw [Graph.warnings, resolve_reports quiet flowless distinct]
  refine filter_filterMap_of_key distinct member fun other otherMember d isRemark => ?_
  rw [remark?_concerns isRemark (named other otherMember) (named o member), Prod.mk.injEq, and_comm]

end JumpTable

/-! ### The outcome of each jump -/

section Outcome

variable {settings : DecodeSettings} {isOpen : NodeId → Prop} {entries : List Entry}
  {kept : List Kept} {pairs : List (Nat × Nat)} {b : Build} {o : Obligation}

private theorem owedBy_named (member : o ∈ owedBy settings entries kept) : o.pin ∈ outputNames := by
  rcases List.mem_append.mp member with member | member
  · obtain ⟨entry, _, rfl⟩ := List.mem_map.mp member
    simp [outputNames]
  · obtain ⟨k, _, owed⟩ := List.mem_flatMap.mp member
    obtain ⟨flow, isFlow, rfl⟩ := List.mem_map.mp owed
    rw [Kept.parts, flowsOf_execParts] at isFlow
    exact continuations_named isFlow

/-- Connecting the outputs reports nothing but what becomes of jumps. -/
theorem Build.Records.resolve_silent {about : DiagnosticCode → Bool}
    (records : b.Records settings isOpen entries kept pairs)
    (silentDangling : about .danglingOffset = false)
    (silentNested : about .noExecutionNode = false) (offsets : OffsetTable) :
    (b.jumps.resolve offsets b.nodeAt? b.graph).1.reports about = b.graph.reports about := by
  obtain ⟨_, _, diagnostics⟩ := b.jumps.resolve_changes offsets b.nodeAt? records.flowless
    records.obligations_nodup
  have others : (b.jumps.obligations.filterMap (b.jumps.remark? offsets b.nodeAt?)).filter
      (fun d => about d.code) = [] := by
    rw [List.filter_eq_nil_iff]
    intro d remarked
    obtain ⟨o, _, isRemark⟩ := List.mem_filterMap.mp remarked
    rcases (JumpTable.remark?_spelled isRemark).1 with code | code
    · simp [code, silentDangling]
    · simp [code, silentNested]
  rw [Graph.reports, diagnostics, List.filter_append, others, List.append_nil]
  rfl

/-- An output that is owed leads where its jump lands, and what is reported about it is the remark on
its jump. -/
theorem Build.Records.outcome (records : b.Records settings isOpen entries kept pairs)
    (quiet : b.graph.reports DiagnosticCode.ofJump = []) (offsets : OffsetTable)
    (member : o ∈ owedBy settings entries kept) :
    let g := (b.jumps.resolve offsets b.nodeAt? b.graph).1
    g.execTarget? o.source o.pin = b.jumps.landing? offsets b.nodeAt? o ∧
      g.warnings o.pin o.source = (b.jumps.remark? offsets b.nodeAt? o).toList := by
  have obligations := records.accounts.obligations
  have distinct := records.obligations_nodup
  have named : ∀ o ∈ b.jumps.obligations, o.pin ∈ outputNames := by
    rw [obligations, List.forall_mem_map]
    intro o owed
    have named := owedBy_named owed
    exact named
  have listed : { o with target := b.jumps.canonical o.target } ∈ b.jumps.obligations := by
    rw [obligations]
    exact List.mem_map.mpr ⟨o, member, rfl⟩
  have leads := (b.jumps.resolve_execTarget? offsets b.nodeAt? records.flowless distinct).1 _ listed
  have warned : _ = (b.jumps.remark? offsets b.nodeAt? _).toList :=
    JumpTable.resolve_warnings quiet records.flowless distinct named listed
  -- The target in the queue is the end of its chain, so that following the chain stays there.
  rw [JumpTable.landing?_canonical offsets b.nodeAt? records.accounts.flat] at leads
  rw [JumpTable.remark?_canonical offsets b.nodeAt? records.accounts.flat] at warned
  exact ⟨leads, warned⟩

end Outcome

end ScriptFlow
