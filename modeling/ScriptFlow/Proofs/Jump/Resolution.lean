import ScriptFlow.Proofs.Expr.Offsets
import ScriptFlow.Proofs.Graph.Changes
import ScriptFlow.Proofs.Jump.Aliases

/-! Connecting the pending jumps. A jump lands on the node of the instruction at its target, if
there is one. Where no output is owed twice and none is connected yet, resolving adds exactly the
edges of the jumps that land and a remark on each of the others, in order, and nothing else of the
graph changes. -/
namespace ScriptFlow.JumpTable

variable (table : JumpTable) (offsets : OffsetTable) (nodeAt : Nat → Option NodeId)

/-- The node on which a jump lands: that of the instruction at the end of the chain from its
target. -/
def landing? (o : Obligation) : Option NodeId :=
  (offsets.topAt? (table.canonical o.target)).bind nodeAt

/-- The edge of a jump that lands. -/
def edge? (o : Obligation) : Option Edge :=
  (table.landing? offsets nodeAt o).map fun node =>
    ⟨.execution, o.source, o.pin, node, executePin⟩

/-- The remark on a jump that does not land: nothing starts at its target, or nothing that has a
node. -/
def remark? (o : Obligation) : Option Diagnostic :=
  match table.landing? offsets nodeAt o, offsets.get? (table.canonical o.target) with
  | some _, _ => none
  | none, none => some (.danglingOffset o.pin o.source (table.canonical o.target))
  | none, some site =>
    some (.noExecutionNode o.pin o.source site.token (table.canonical o.target))

/-- An output that is free gets the edge of its jump, if that lands; otherwise only a remark is
made. -/
theorem discharge_of_free (state : Graph × Nat) (o : Obligation)
    (free : state.1.canConnectExec o.source o.pin = true) :
    let after := (table.discharge offsets nodeAt state o).1
    after.nodes = state.1.nodes ∧
      after.edges.toList = state.1.edges.toList ++ (table.edge? offsets nodeAt o).toList ∧
      after.diagnostics.toList =
        state.1.diagnostics.toList ++ (table.remark? offsets nodeAt o).toList := by
  unfold discharge settle edge? remark? landing? OffsetTable.topAt?
  cases found : offsets.get? (table.canonical o.target) with
  | none => simp [found, Graph.diagnose]
  | some site =>
    by_cases top : site.isTopLevel
    · cases node? : nodeAt site.position with
      | none => simp [found, top, node?, Graph.diagnose]
      | some node => simp [found, top, node?, free, Graph.connectExec, Graph.addEdge]
    · simp [found, top, Graph.diagnose]

variable {table offsets nodeAt} in
theorem edge?_eq_some {o : Obligation} {edge : Edge} (landed : table.edge? offsets nodeAt o = some edge) :
    edge.kind = .execution ∧ edge.source = o.source ∧ edge.sourcePin = o.pin ∧
      table.landing? offsets nodeAt o = some edge.target := by
  obtain ⟨node, lands, rfl⟩ := Option.map_eq_some_iff.mp landed
  exact ⟨rfl, rfl, rfl, lands⟩

variable {table} in
/-- Where a jump lands is a matter of the end of the chain from its target. -/
theorem landing?_canonical (flat : table.Flat) (o : Obligation) :
    table.landing? offsets nodeAt { o with target := table.canonical o.target } =
      table.landing? offsets nodeAt o := by
  rw [landing?, landing?, canonical_canonical flat]

variable {table} in
theorem edge?_canonical (flat : table.Flat) (o : Obligation) :
    table.edge? offsets nodeAt { o with target := table.canonical o.target } =
      table.edge? offsets nodeAt o := by
  rw [edge?, edge?, landing?_canonical offsets nodeAt flat]

variable {table} in
theorem remark?_canonical (flat : table.Flat) (o : Obligation) :
    table.remark? offsets nodeAt { o with target := table.canonical o.target } =
      table.remark? offsets nodeAt o := by
  rw [remark?, remark?, landing?_canonical offsets nodeAt flat, canonical_canonical flat]

/-- An output is free when no edge leaves it. -/
theorem canConnectExec_iff (g : Graph) (source : NodeId) (pin : String) :
    g.canConnectExec source pin = true ↔
      ∀ edge ∈ g.edges, edge.kind = .execution → edge.source = source → edge.sourcePin ≠ pin := by
  simp [Graph.canConnectExec, Graph.execTarget?, Graph.leaves]

variable {g : Graph}

/-- Resolving adds the edges of the jumps that land and the remarks on the others, in order. -/
theorem resolve_changes (flowless : ∀ edge ∈ g.edges, edge.kind ≠ .execution)
    (distinct : (table.obligations.map fun o => (o.source, o.pin)).Nodup) :
    (table.resolve offsets nodeAt g).1.nodes = g.nodes ∧
      (table.resolve offsets nodeAt g).1.edges.toList =
        g.edges.toList ++ table.obligations.filterMap (table.edge? offsets nodeAt) ∧
      (table.resolve offsets nodeAt g).1.diagnostics.toList =
        g.diagnostics.toList ++ table.obligations.filterMap (table.remark? offsets nodeAt) := by
  -- After some of the jumps, the edges that leave the outputs of the others are still missing.
  have run (done rest : List Obligation) (state : Graph × Nat)
      (apart : ((done ++ rest).map fun o => (o.source, o.pin)).Nodup)
      (nodes : state.1.nodes = g.nodes)
      (edges : state.1.edges.toList =
        g.edges.toList ++ done.filterMap (table.edge? offsets nodeAt))
      (remarks : state.1.diagnostics.toList =
        g.diagnostics.toList ++ done.filterMap (table.remark? offsets nodeAt)) :
      let after := (rest.foldl (table.discharge offsets nodeAt) state).1
      after.nodes = g.nodes ∧
        after.edges.toList =
          g.edges.toList ++ (done ++ rest).filterMap (table.edge? offsets nodeAt) ∧
        after.diagnostics.toList =
          g.diagnostics.toList ++ (done ++ rest).filterMap (table.remark? offsets nodeAt) := by
    induction rest generalizing done state with
    | nil => exact ⟨nodes, by simpa using edges, by simpa using remarks⟩
    | cons o rest ih =>
      have free : state.1.canConnectExec o.source o.pin = true := by
        rw [canConnectExec_iff]
        intro edge member kind source pin
        rw [← Array.mem_toList_iff, edges, List.mem_append] at member
        rcases member with member | member
        · exact flowless edge (Array.mem_toList_iff.mp member) kind
        · obtain ⟨earlier, earlierMember, landed⟩ := List.mem_filterMap.mp member
          obtain ⟨_, sameSource, samePin, _⟩ := edge?_eq_some landed
          rw [List.map_append, List.nodup_append] at apart
          refine apart.2.2 _ (List.mem_map_of_mem earlierMember) (o.source, o.pin) (by simp) ?_
          rw [← sameSource, ← samePin, source, pin]
      obtain ⟨nodesAfter, edgesAfter, remarksAfter⟩ :=
        discharge_of_free table offsets nodeAt state o free
      have shifted : done ++ o :: rest = (done ++ [o]) ++ rest := by simp
      rw [shifted] at apart ⊢
      refine ih (done ++ [o]) _ apart (nodesAfter.trans nodes) ?_ ?_
      · rw [edgesAfter, edges, List.filterMap_append, List.append_assoc]
        cases landed : table.edge? offsets nodeAt o <;> simp [landed]
      · rw [remarksAfter, remarks, List.filterMap_append, List.append_assoc]
        cases remarked : table.remark? offsets nodeAt o <;> simp [remarked]
  exact run [] table.obligations (g, 0) distinct rfl (by simp) (by simp)

/-- After resolving, an output that was owed leads where its jump lands, and every execution edge is
the one of its output. -/
theorem resolve_execTarget? (flowless : ∀ edge ∈ g.edges, edge.kind ≠ .execution)
    (distinct : (table.obligations.map fun o => (o.source, o.pin)).Nodup) :
    (∀ o ∈ table.obligations, (table.resolve offsets nodeAt g).1.execTarget? o.source o.pin =
      table.landing? offsets nodeAt o) ∧
    ∀ edge ∈ (table.resolve offsets nodeAt g).1.edges, edge.kind = .execution →
      (table.resolve offsets nodeAt g).1.execTarget? edge.source edge.sourcePin =
        some edge.target := by
  obtain ⟨_, edges, _⟩ := resolve_changes table offsets nodeAt flowless distinct
  have owed (o : Obligation) (member : o ∈ table.obligations) :
      (table.resolve offsets nodeAt g).1.execTarget? o.source o.pin =
        table.landing? offsets nodeAt o := by
    have lands (edge : Edge) (present : edge ∈ (table.resolve offsets nodeAt g).1.edges)
        (leaving : Graph.leaves o.source o.pin edge = true) :
        table.landing? offsets nodeAt o = some edge.target := by
      simp only [Graph.leaves, decide_eq_true_eq] at leaving
      rw [← Array.mem_toList_iff, edges, List.mem_append] at present
      rcases present with present | present
      · exact absurd leaving.1 (flowless edge (Array.mem_toList_iff.mp present))
      · obtain ⟨other, otherMember, landed⟩ := List.mem_filterMap.mp present
        obtain ⟨_, source, pin, lands⟩ := edge?_eq_some landed
        have same : other = o := List.inj_on_of_nodup_map distinct otherMember member
          (by rw [← source, ← pin, leaving.2.1, leaving.2.2])
        rw [← same, lands]
    unfold Graph.execTarget?
    cases found : (table.resolve offsets nodeAt g).1.edges.find? (Graph.leaves o.source o.pin) with
    | some edge =>
      exact (lands edge (Array.mem_of_find?_eq_some found) (Array.find?_some found)).symm
    | none =>
      cases landed : table.landing? offsets nodeAt o with
      | none => rfl
      | some node =>
        have missing := Array.find?_eq_none.mp found
        refine absurd ?_ (missing ⟨.execution, o.source, o.pin, node, executePin⟩ ?_)
        · simp [Graph.leaves]
        · rw [← Array.mem_toList_iff, edges]
          refine List.mem_append_right _ (List.mem_filterMap.mpr ⟨o, member, ?_⟩)
          rw [edge?, landed]
          rfl
  refine ⟨owed, fun edge member kind => ?_⟩
  rw [← Array.mem_toList_iff, edges, List.mem_append] at member
  rcases member with member | member
  · exact absurd kind (flowless edge (Array.mem_toList_iff.mp member))
  · obtain ⟨o, oMember, landed⟩ := List.mem_filterMap.mp member
    obtain ⟨_, source, pin, lands⟩ := edge?_eq_some landed
    rw [source, pin, owed o oMember, lands]

end ScriptFlow.JumpTable
