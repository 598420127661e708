import ScriptFlow.Proofs.Flow.Inputs
import ScriptFlow.Proofs.Jump.Conservation
import ScriptFlow.Proofs.Value.Layers

/-! Data flow has no cycles. Instructions are never listed among the values, so that what feeds them
leads out of the layers of values and not back; entries, folds and remarks add no data edges, and
resolving the jumps adds execution edges only. -/
namespace ScriptFlow

namespace Build

variable {settings : DecodeSettings} {mode : GraphMode} {b after : Build} {id : NodeId}

/-- Giving a node its parts keeps layers, as long as the node is not listed. -/
private theorem addParts_layered {offset next : Nat} {parts : List ExecPart}
    (layered : b.Layered mode)
    (aside : ∀ depth, b.Above mode id depth)
    (run : addParts mode id offset next parts b = .ok after) : after.Layered mode := by
  induction parts generalizing b with
  | nil =>
    cases run
    exact layered
  | cons part rest ih =>
    have pinned (name : String) (direction : Direction) (kind : FlowKind) (depth : Nat) :
        (b.onGraph (·.addPin id name direction kind)).Above mode id depth :=
      ⟨by simpa using (aside depth).1, (aside depth).2⟩
    have flow (pin : String) (target : Nat) (run : addParts mode id offset next rest
        (b.addFlow id pin target) = .ok after) : after.Layered mode := by
      rw [addFlow_eq] at run
      refine ih ?_ ?_ run
      · exact layered.widen rfl (by simp) (by simp)
      · intro depth
        exact pinned pin .output .execution depth
    cases part with
    | enter => exact ih (layered.addPin id _ _ _) (pinned _ _ _) run
    | next pin => exact flow pin next run
    | jump pin target => exact flow pin target run
    | input pin operand =>
      obtain ⟨kept, returned⟩ := value_layered (layered.addPin id pin .input .data) operand
      have grows := (value_keeps (b.onGraph (·.addPin id pin .input .data)) mode operand).toGrows
      have still (depth : Nat) := (pinned pin .input .data depth).later grows
      rw [addParts] at run
      rcases called : (b.onGraph (·.addPin id pin .input .data)).value mode operand with
        ⟨outcome, reached⟩
      rw [called] at run kept returned still
      cases outcome with
      | error gap => cases run
      | ok value =>
        obtain ⟨e, entry, _⟩ := returned value rfl
        exact ih (kept.connectData entry (still _) pin) still run
    | malformedLatent function =>
      have remarked : (b.onGraph (·.diagnose (.malformedLatent function offset))).Layered mode :=
        layered.widen rfl rfl (by simp)
      exact ih remarked aside run

private theorem addInstruction_layered {position offset size : Nat} {e : Expr String}
    (layered : b.Layered settings.mode)
    (run : b.addInstruction settings position offset size e = .ok after) :
    after.Layered settings.mode := by
  simp only [addInstruction] at run
  split at run
  · cases run
  · rename_i built parts
    cases run
    have given : built.Layered settings.mode := by
      refine addParts_layered ?_ ?_ parts
      · exact layered.widen rfl rfl (by simp)
      · -- Whatever is listed stands for an earlier node.
        intro depth
        refine ⟨by simp, ?_⟩
        intro listed entry
        exact absurd (layered.listed listed _ entry) (Nat.lt_irrefl _)
    unfold closeInstruction
    cases ((e.shown settings.mode).execShape settings).title with
    | some title => exact given.widen rfl rfl (by simp [Graph.relabel])
    | none => exact given.widen rfl rfl (by simp [Graph.markUnmodeled])

private theorem addStream_layered {stream : List (Expr String)} {position offset : Nat}
    (layered : b.Layered settings.mode)
    (run : addStream settings position offset stream b = .ok after) :
    after.Layered settings.mode := by
  refine addStream_preserves (Layered settings.mode) ?_ ?_ ?_ layered run
  · intro c next position offset size e before step
    exact addInstruction_layered before step
  · intro c jumps before
    exact before.widen rfl rfl (Nat.le_refl _)
  · intro c offset target before
    exact before.widen rfl rfl (by simp)

private theorem addEntries_layered (job : Job) (layered : b.Layered mode) :
    (job.addEntries b).Layered mode := by
  refine addEntries_preserves (Layered mode) ?_ ?_ job layered
  · intro c name start before
    exact before.widen rfl (by simp [addEntry]) (by simp [addEntry])
  · intro c name entry start before
    exact before.widen rfl rfl (by simp)

/-- A run of calls keeps layers, whichever of them fail. -/
private theorem valueAll_layered (layered : b.Layered mode) (operands : List (Expr String)) :
    (b.valueAll mode operands).2.Layered mode := by
  induction operands generalizing b with
  | nil => exact layered
  | cons e rest ih => exact ih (value_layered layered e).1

end Build

/-- Resolving does not change what feeds what. -/
theorem feeds_resolve (table : JumpTable) (offsets : OffsetTable) (nodeAt : Nat → Option NodeId)
    (g : Graph) : (table.resolve offsets nodeAt g).1.Feeds = g.Feeds := by
  obtain ⟨_, _, gains, _⟩ := table.queue_gains offsets nodeAt table.obligations (g, 0)
  funext source target
  refine propext ⟨?_, ?_⟩
  · rintro ⟨edge, member, data, ends⟩
    exact ⟨edge, (gains.mem_data_iff data).mp member, data, ends⟩
  · rintro ⟨edge, member, data, ends⟩
    exact ⟨edge, (gains.mem_data_iff data).mpr member, data, ends⟩

/-- Data flow is acyclic. After any calls for values, failed ones included, no value feeds itself,
directly or through others; and neither does any node of a graph that is then finished. -/
theorem dataFlow_acyclic (symbols : Symbols) (job : Job) (operands : List (Expr SymbolRef)) :
    let b := (Build.valueAll job.settings.mode (operands.map symbols.resolve) {}).2
    (∀ id, ¬ Relation.TransGen b.graph.Feeds id id) ∧
      ∀ g, job.finish b = .ok g → ∀ id, ¬ Relation.TransGen g.Feeds id id := by
  intro b
  have layered : b.Layered job.settings.mode :=
    Build.valueAll_layered (.empty job.settings.mode) (operands.map symbols.resolve)
  refine ⟨layered.acyclic, ?_⟩
  intro g built
  cases table : OffsetTable.build job.stream with
  | error gap => simp [Job.finish, table, bind, Except.bind] at built
  | ok offsets =>
    cases run : Build.addStream job.settings 0 0 job.stream (job.addEntries b) with
    | error gap => simp [Job.finish, table, run, bind, Except.bind] at built
    | ok last =>
      rw [Job.finish_of_run table run] at built
      cases built
      rw [feeds_resolve]
      exact (Build.addStream_layered (Build.addEntries_layered job layered) run).acyclic

/-- A call that fails at its second operand, when it has a node and its first operand as well; then
a branch on an equal of that first operand, which feeds both nodes in the end. -/
theorem dataFlow_acyclic_failed :
    let symbols : Symbols := ⟨fun _ => "Actor.Health", fun _ => "Actor"⟩
    let read (index : SymbolRef) : Expr SymbolRef := .atom (.readVariable .instanceMember index)
    let call : Expr SymbolRef := .variadic (.call .math 1) [read 7, .atom (.unknown 0x7e)]
    let job : Job := { stream := [.unary (.jumpIfNot 0) (symbols.resolve (read (-2)))] }
    let run := Build.valueAll .plain ([call].map symbols.resolve) {}
    run.1 = [.error ⟨0x7e⟩] ∧ (∀ id, ¬ Relation.TransGen run.2.graph.Feeds id id) ∧
      ∃ g, job.finish run.2 = .ok g ∧ g.Feeds 1 0 ∧ g.Feeds 1 2 ∧
        ∀ id, ¬ Relation.TransGen g.Feeds id id := by
  intro symbols read call job run
  obtain ⟨before, after⟩ := dataFlow_acyclic symbols job [call]
  have edges : (job.finish run.2).toOption.map
      (·.edges.toList.map fun edge => (edge.kind, edge.source, edge.target)) =
      some [(.data, 1, 0), (.data, 1, 2), (.execution, 2, 2)] := by
    subst run job call read symbols
    decide
  obtain ⟨g, finished, listed⟩ := Option.map_eq_some_iff.mp edges
  have built : job.finish run.2 = .ok g := toOption_eq_some.mp finished
  have feeds (source target : NodeId)
      (member : (FlowKind.data, source, target) ∈ g.edges.toList.map fun edge =>
        (edge.kind, edge.source, edge.target)) : g.Feeds source target := by
    obtain ⟨edge, present, same⟩ := List.mem_map.mp member
    simp only [Prod.mk.injEq] at same
    exact ⟨edge, Array.mem_toList_iff.mp present, same⟩
  refine ⟨by decide, before, g, built, feeds 1 0 ?_, feeds 1 2 ?_, after g built⟩
  · rw [listed]
    decide
  · rw [listed]
    decide

end ScriptFlow
