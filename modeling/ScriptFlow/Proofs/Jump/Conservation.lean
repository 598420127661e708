import ScriptFlow.Proofs.Jump.Flatness
import ScriptFlow.Proofs.Jump.Resolution

/-! Resolving conserves jumps. Here nothing is assumed of the graph or of the queue: outputs may be
owed twice, and may be connected before. Each jump of the queue adds one execution edge or one remark
and nothing else, and an output that has an edge keeps it. The first jump of an output that lands
therefore takes it for good, from the later ones of this queue and from all of a second pass. -/
namespace ScriptFlow

namespace Graph

/-- No execution edge leaves an output. -/
def Open (g : Graph) (source : NodeId) (pin : String) : Prop :=
  ∀ edge ∈ g.edges, edge.kind = .execution → edge.source = source → edge.sourcePin ≠ pin

/-- At most one execution edge leaves each output. -/
def Single (g : Graph) : Prop :=
  ((g.edges.toList.filter (·.kind = .execution)).map fun edge => (edge.source, edge.sourcePin)).Nodup

/-- A graph with further execution edges and diagnostics, each at the end, and nothing else
changed. -/
structure Gains (g after : Graph) (added : List Edge) (remarks : List Diagnostic) : Prop where
  nodes : after.nodes = g.nodes
  readers : after.variableReaders = g.variableReaders
  edges : after.edges.toList = g.edges.toList ++ added
  diagnostics : after.diagnostics.toList = g.diagnostics.toList ++ remarks
  execution : ∀ edge ∈ added, edge.kind = .execution

variable {g after last : Graph} {source : NodeId} {pin : String}

theorem canConnectExec_iff_open : g.canConnectExec source pin = true ↔ g.Open source pin :=
  JumpTable.canConnectExec_iff g source pin

/-- A further execution edge closes the output that it leaves, and no other. -/
theorem open_addEdge (node : NodeId) (other : NodeId) (otherPin : String) :
    (g.addEdge ⟨.execution, source, pin, node, executePin⟩).Open other otherPin ↔
      g.Open other otherPin ∧ ¬ (source = other ∧ pin = otherPin) := by
  constructor
  · intro free
    constructor
    · intro edge member
      exact free edge (Array.mem_push_of_mem _ member)
    · rintro ⟨rfl, rfl⟩
      exact free _ Array.mem_push_self rfl rfl rfl
  · rintro ⟨free, elsewhere⟩ edge member kind leaves
    rcases Array.mem_push.mp member with old | rfl
    · exact free edge old kind leaves
    · intro same
      exact elsewhere ⟨leaves, same⟩

/-- An edge from an open output leaves at most one edge on each. -/
theorem Single.addEdge (single : g.Single) (free : g.Open source pin) (node : NodeId) :
    (g.addEdge ⟨.execution, source, pin, node, executePin⟩).Single := by
  unfold Single
  rw [edges_addEdge, List.filter_append, List.map_append, List.nodup_append]
  refine ⟨single, by simp, ?_⟩
  intro output old new latest same
  obtain ⟨edge, member, rfl⟩ := List.mem_map.mp old
  obtain ⟨present, kind⟩ := List.mem_filter.mp member
  simp only [decide_true, List.filter_cons_of_pos, List.filter_nil, List.map_cons, List.map_nil,
    List.mem_singleton] at latest
  obtain ⟨sameSource, samePin⟩ := Prod.mk.inj (same.trans latest)
  exact free edge (Array.mem_toList_iff.mp present) (by simpa using kind) sameSource samePin

namespace Gains

variable {edges edges' : List Edge} {remarks remarks' : List Diagnostic}

theorem refl (g : Graph) : g.Gains g [] [] := by
  constructor <;> simp

theorem trans (first : g.Gains after edges remarks) (second : after.Gains last edges' remarks') :
    g.Gains last (edges ++ edges') (remarks ++ remarks') where
  nodes := second.nodes.trans first.nodes
  readers := second.readers.trans first.readers
  edges := by rw [second.edges, first.edges, List.append_assoc]
  diagnostics := by rw [second.diagnostics, first.diagnostics, List.append_assoc]
  execution edge member := by
    rcases List.mem_append.mp member with old | new
    · exact first.execution edge old
    · exact second.execution edge new

/-- An output that is open in the end was open before. -/
theorem open_of_open (gains : g.Gains after edges remarks) (free : after.Open source pin) :
    g.Open source pin := by
  intro edge member
  refine free edge ?_
  rw [← Array.mem_toList_iff, gains.edges]
  exact List.mem_append_left _ (Array.mem_toList_iff.mpr member)

/-- Edges that are no execution edges are neither added nor lost. -/
theorem mem_data_iff (gains : g.Gains after edges remarks) {edge : Edge} (data : edge.kind = .data) :
    edge ∈ after.edges ↔ edge ∈ g.edges := by
  rw [← Array.mem_toList_iff, gains.edges, List.mem_append, Array.mem_toList_iff]
  constructor
  · rintro (old | new)
    · exact old
    · rw [gains.execution edge new] at data
      cases data
  · exact .inl

end Gains

end Graph

namespace JumpTable

variable (table : JumpTable) (offsets : OffsetTable) (nodeAt : Nat → Option NodeId) (g : Graph)

/-! ### One jump -/

/-- What a jump does to the graph so far and to the number of edges: it connects an open output to
the node on which it lands, or leaves a remark when it does not land or its output is taken. -/
inductive Discharged (state : Graph × Nat) (o : Obligation) : Graph × Nat → Prop
  | connected (node : NodeId) (lands : table.landing? offsets nodeAt o = some node)
    (free : state.1.Open o.source o.pin) :
    Discharged state o
      (state.1.addEdge ⟨.execution, o.source, o.pin, node, executePin⟩, state.2 + 1)
  | refused (remark : Diagnostic)
    (blocked : ∀ node, table.landing? offsets nodeAt o = some node →
      ¬ state.1.Open o.source o.pin) :
    Discharged state o (state.1.diagnose remark, state.2)

theorem discharged (state : Graph × Nat) (o : Obligation) :
    Discharged table offsets nodeAt state o (table.discharge offsets nodeAt state o) := by
  have lands : table.landing? offsets nodeAt o =
      (offsets.topAt? (table.canonical o.target)).bind nodeAt := rfl
  unfold OffsetTable.topAt? at lands
  unfold discharge settle
  cases found : offsets.get? (table.canonical o.target) with
  | none =>
    simp only [found, Option.bind_none] at lands ⊢
    exact .refused _ (by simp [lands])
  | some site =>
    by_cases top : site.isTopLevel
    · cases node? : nodeAt site.position with
      | none =>
        simp only [found, Option.bind_some, top, ↓reduceIte, node?] at lands ⊢
        exact .refused _ (by simp [lands])
      | some node =>
        simp only [found, Option.bind_some, top, ↓reduceIte, node?] at lands ⊢
        by_cases free : state.1.canConnectExec o.source o.pin
        · simp only [free, ↓reduceIte, Graph.connectExec]
          exact .connected node lands (Graph.canConnectExec_iff_open.mp free)
        · simp only [free]
          refine .refused _ ?_
          intro _ _ opened
          exact free (Graph.canConnectExec_iff_open.mpr opened)
    · simp only [found, Option.bind_some, top, Bool.false_eq_true, ↓reduceIte, Option.bind_none]
        at lands ⊢
      exact .refused _ (by simp [lands])

namespace Discharged

variable {table offsets nodeAt} {state after : Graph × Nat} {o : Obligation}

/-- A jump adds one edge or one remark. -/
theorem gains (step : Discharged table offsets nodeAt state o after) :
    ∃ edges remarks, state.1.Gains after.1 edges remarks ∧
      after.2 = state.2 + edges.length ∧ edges.length + remarks.length = 1 := by
  cases step with
  | connected node lands free =>
    refine ⟨[⟨.execution, o.source, o.pin, node, executePin⟩], [], ?_, rfl, rfl⟩
    constructor <;> simp [Graph.addEdge]
  | refused remark blocked =>
    refine ⟨[], [remark], ?_, rfl, rfl⟩
    constructor <;> simp [Graph.diagnose]

theorem single (step : Discharged table offsets nodeAt state o after) (single : state.1.Single) :
    after.1.Single := by
  cases step with
  | connected node lands free => exact single.addEdge free node
  | refused remark blocked => exact single

/-- After a jump that lands, its output is taken. -/
theorem taken (step : Discharged table offsets nodeAt state o after) {node : NodeId}
    (lands : table.landing? offsets nodeAt o = some node) : ¬ after.1.Open o.source o.pin := by
  cases step with
  | connected node' lands' free =>
    intro opened
    exact ((Graph.open_addEdge node' o.source o.pin).mp opened).2 ⟨rfl, rfl⟩
  | refused remark blocked => exact blocked node lands

/-- A jump that cannot connect leaves the edges alone. -/
theorem idle (step : Discharged table offsets nodeAt state o after)
    (blocked : ∀ node, table.landing? offsets nodeAt o = some node →
      ¬ state.1.Open o.source o.pin) :
    after.1.edges = state.1.edges ∧ after.2 = state.2 := by
  cases step with
  | connected node lands free => exact absurd free (blocked node lands)
  | refused remark blocked => exact ⟨rfl, rfl⟩

end Discharged

/-! ### A queue of jumps -/

section Queue

variable (queue : List Obligation) (state : Graph × Nat)

/-- A queue adds one edge or one remark for each of its jumps, and counts the edges. -/
theorem queue_gains :
    ∃ edges remarks, state.1.Gains (queue.foldl (table.discharge offsets nodeAt) state).1 edges
        remarks ∧
      (queue.foldl (table.discharge offsets nodeAt) state).2 = state.2 + edges.length ∧
      edges.length + remarks.length = queue.length := by
  induction queue generalizing state with
  | nil => exact ⟨[], [], .refl _, rfl, rfl⟩
  | cons o rest ih =>
    obtain ⟨edges, remarks, first, emitted, one⟩ := (table.discharged offsets nodeAt state o).gains
    obtain ⟨edges', remarks', later, emitted', others⟩ := ih (table.discharge offsets nodeAt state o)
    refine ⟨_, _, first.trans later, ?_, ?_⟩
    · rw [List.foldl_cons, emitted', emitted, List.length_append]
      omega
    · simp only [List.length_append, List.length_cons]
      omega

private theorem queue_single (single : state.1.Single) :
    (queue.foldl (table.discharge offsets nodeAt) state).1.Single := by
  induction queue generalizing state with
  | nil => exact single
  | cons o rest ih => exact ih _ ((table.discharged offsets nodeAt state o).single single)

/-- Once a queue is through, the output of each jump that lands is taken. -/
private theorem queue_takes {o : Obligation} (member : o ∈ queue) {node : NodeId}
    (lands : table.landing? offsets nodeAt o = some node) :
    ¬ (queue.foldl (table.discharge offsets nodeAt) state).1.Open o.source o.pin := by
  induction queue generalizing state with
  | nil => cases member
  | cons first rest ih =>
    rcases List.mem_cons.mp member with rfl | later
    · intro opened
      obtain ⟨_, _, gains, _⟩ :=
        table.queue_gains offsets nodeAt rest (table.discharge offsets nodeAt state o)
      exact (table.discharged offsets nodeAt state o).taken lands (gains.open_of_open opened)
    · exact ih _ later

/-- A queue all of whose jumps are blocked leaves the edges alone. -/
private theorem queue_idle
    (blocked : ∀ o ∈ queue, ∀ node, table.landing? offsets nodeAt o = some node →
      ¬ state.1.Open o.source o.pin) :
    (queue.foldl (table.discharge offsets nodeAt) state).1.edges = state.1.edges ∧
      (queue.foldl (table.discharge offsets nodeAt) state).2 = state.2 := by
  induction queue generalizing state with
  | nil => exact ⟨rfl, rfl⟩
  | cons o rest ih =>
    have step := table.discharged offsets nodeAt state o
    obtain ⟨edges, emitted⟩ := step.idle (blocked o (by simp))
    -- What blocks the later jumps is an edge, and no edge is lost.
    have still : ∀ later ∈ rest, ∀ node, table.landing? offsets nodeAt later = some node →
        ¬ (table.discharge offsets nodeAt state o).1.Open later.source later.pin := by
      intro later member node lands opened
      obtain ⟨_, _, gains, _⟩ := step.gains
      exact blocked later (List.mem_cons_of_mem _ member) node lands (gains.open_of_open opened)
    obtain ⟨edgesAfter, emittedAfter⟩ := ih _ still
    exact ⟨edgesAfter.trans edges, emittedAfter.trans emitted⟩

end Queue

/-! ### Which jumps get an edge -/

/-- The graph and the number of edges after the first jumps of the queue. -/
def resolveFirst (count : Nat) : Graph × Nat :=
  (table.obligations.take count).foldl (table.discharge offsets nodeAt) (g, 0)

/-- The jump at a place of the queue gets an edge to a node: when its turn comes, that edge is
added. -/
def GetsEdge (place : Nat) (node : NodeId) : Prop :=
  ∃ o, table.obligations[place]? = some o ∧
    (table.resolveFirst offsets nodeAt g (place + 1)).1.edges =
      (table.resolveFirst offsets nodeAt g place).1.edges.push
        ⟨.execution, o.source, o.pin, node, executePin⟩

variable {table g} {place : Nat} {o : Obligation} {node : NodeId}

theorem resolveFirst_succ (queued : table.obligations[place]? = some o) :
    table.resolveFirst offsets nodeAt g (place + 1) =
      table.discharge offsets nodeAt (table.resolveFirst offsets nodeAt g place) o := by
  rw [resolveFirst, resolveFirst, List.take_add_one, queued, List.foldl_append]
  rfl

/-- A jump gets an edge exactly to the node on which it lands, provided its output is still open. -/
theorem getsEdge_iff (queued : table.obligations[place]? = some o) :
    table.GetsEdge offsets nodeAt g place node ↔
      table.landing? offsets nodeAt o = some node ∧
        (table.resolveFirst offsets nodeAt g place).1.Open o.source o.pin := by
  have step := table.discharged offsets nodeAt (table.resolveFirst offsets nodeAt g place) o
  rw [← resolveFirst_succ offsets nodeAt queued] at step
  unfold GetsEdge
  generalize before : table.resolveFirst offsets nodeAt g place = state at step ⊢
  generalize table.resolveFirst offsets nodeAt g (place + 1) = after at step ⊢
  constructor
  · rintro ⟨other, same, added⟩
    cases queued.symm.trans same
    cases step with
    | connected node' lands free =>
      have sameEdge := (Array.push_inj_right.mp added : _)
      cases sameEdge
      exact ⟨lands, free⟩
    | refused remark blocked =>
      have sizes := congrArg Array.size added
      simp [Graph.diagnose] at sizes
  · rintro ⟨lands, free⟩
    refine ⟨o, queued, ?_⟩
    cases step with
    | connected node' lands' free' =>
      cases lands.symm.trans lands'
      rfl
    | refused remark blocked => exact absurd free (blocked node lands)

/-- The turn of a jump closes its own output, exactly when it gets an edge, and no other. -/
private theorem resolveFirst_succ_open_iff (queued : table.obligations[place]? = some o)
    (source : NodeId) (pin : String) :
    (table.resolveFirst offsets nodeAt g (place + 1)).1.Open source pin ↔
      (table.resolveFirst offsets nodeAt g place).1.Open source pin ∧
        (o.source = source → o.pin = pin →
          ∀ node, ¬ table.GetsEdge offsets nodeAt g place node) := by
  have gets (node : NodeId) : table.GetsEdge offsets nodeAt g place node ↔
      table.landing? offsets nodeAt o = some node ∧
        (table.resolveFirst offsets nodeAt g place).1.Open o.source o.pin :=
    getsEdge_iff offsets nodeAt queued
  have step := table.discharged offsets nodeAt (table.resolveFirst offsets nodeAt g place) o
  rw [← resolveFirst_succ offsets nodeAt queued] at step
  generalize table.resolveFirst offsets nodeAt g (place + 1) = after at step ⊢
  cases step with
  | connected node lands free =>
    rw [Graph.open_addEdge]
    refine and_congr_right fun _ => ⟨?_, ?_⟩
    · intro elsewhere sameSource samePin
      exact absurd ⟨sameSource, samePin⟩ elsewhere
    · rintro silent ⟨sameSource, samePin⟩
      exact silent sameSource samePin node ((gets node).mpr ⟨lands, free⟩)
  | refused remark blocked =>
    refine ⟨fun free => ⟨free, fun _ _ node got => ?_⟩, fun both => both.1⟩
    obtain ⟨lands, free⟩ := (gets node).mp got
    exact blocked node lands free

/-- When the turn of a jump comes, an output is open exactly when it was open before the queue and
none of the earlier jumps on it got an edge. -/
theorem resolveFirst_open_iff (place : Nat) (source : NodeId) (pin : String) :
    (table.resolveFirst offsets nodeAt g place).1.Open source pin ↔
      g.Open source pin ∧ ∀ j < place, ∀ earlier, table.obligations[j]? = some earlier →
        earlier.source = source → earlier.pin = pin →
        ∀ node, ¬ table.GetsEdge offsets nodeAt g j node := by
  induction place with
  | zero => simp [resolveFirst]
  | succ place ih =>
    rw [Nat.forall_lt_succ_right, ← and_assoc, ← ih]
    cases queued : table.obligations[place]? with
    | none =>
      have same : table.resolveFirst offsets nodeAt g (place + 1) =
          table.resolveFirst offsets nodeAt g place := by
        rw [resolveFirst, List.take_add_one, queued]
        simp [resolveFirst]
      simp [same]
    | some o =>
      rw [resolveFirst_succ_open_iff offsets nodeAt queued]
      simp

/-! ### Tables made by calls -/

/-- Resolving conserves jumps, in every table that calls can make and on every graph. It adds
execution edges and diagnostics at the end and changes nothing else: as many edges as it reports, and
a diagnostic for each of the other jumps. A jump gets an edge to a node exactly when an instruction
with that node starts at its target, no execution edge left its output before, and no earlier jump on
the output got one. Outputs that had at most one edge still have at most one. Resolving once more
adds no edge, and a diagnostic for each jump. -/
theorem resolve_conserves (calls : List Call) (offsets : OffsetTable)
    (nodeAt : Nat → Option NodeId) (g : Graph) :
    let table := (run calls).table
    let resolved := table.resolve offsets nodeAt g
    let again := table.resolve offsets nodeAt resolved.1
    table.resolveFirst offsets nodeAt g table.obligations.length = resolved ∧
    (∃ edges remarks, g.Gains resolved.1 edges remarks ∧ edges.length = resolved.2 ∧
      resolved.2 + remarks.length = table.obligations.length) ∧
    (∀ place o node, table.obligations[place]? = some o →
      (table.GetsEdge offsets nodeAt g place node ↔
        (∃ site, offsets.get? o.target = some site ∧ site.isTopLevel = true ∧
          nodeAt site.position = some node) ∧
        g.Open o.source o.pin ∧
        ∀ j < place, ∀ earlier, table.obligations[j]? = some earlier →
          earlier.source = o.source → earlier.pin = o.pin →
          ∀ other, ¬ table.GetsEdge offsets nodeAt g j other)) ∧
    (g.Single → resolved.1.Single) ∧
    again.2 = 0 ∧ ∃ remarks, resolved.1.Gains again.1 [] remarks ∧
      remarks.length = table.obligations.length := by
  intro table resolved again
  obtain ⟨flat, settled⟩ := run_flat calls
  refine ⟨?_, ?_, ?_, table.queue_single offsets nodeAt table.obligations (g, 0), ?_⟩
  · rw [resolveFirst, List.take_length]
    rfl
  · obtain ⟨edges, remarks, gains, emitted, total⟩ :=
      table.queue_gains offsets nodeAt table.obligations (g, 0)
    have count : resolved.2 = edges.length := emitted.trans (Nat.zero_add _)
    exact ⟨edges, remarks, gains, count.symm, count ▸ total⟩
  · intro place o node queued
    have target : table.canonical o.target = o.target :=
      canonical_of_free flat (settled o (List.mem_of_getElem? queued))
    have lands : table.landing? offsets nodeAt o = some node ↔
        ∃ site, offsets.get? o.target = some site ∧ site.isTopLevel = true ∧
          nodeAt site.position = some node := by
      rw [landing?, target, OffsetTable.topAt?]
      simp only [Option.bind_eq_some_iff, Option.ite_none_right_eq_some, Option.some.injEq]
      constructor
      · rintro ⟨_, ⟨site, found, top, rfl⟩, present⟩
        exact ⟨site, found, top, present⟩
      · rintro ⟨site, found, top, present⟩
        exact ⟨_, ⟨site, found, top, rfl⟩, present⟩
    rw [getsEdge_iff offsets nodeAt queued, resolveFirst_open_iff, lands]
  · -- The first pass took the output of every jump that lands.
    have blocked : ∀ o ∈ table.obligations, ∀ node, table.landing? offsets nodeAt o = some node →
        ¬ resolved.1.Open o.source o.pin :=
      fun o member node lands => table.queue_takes offsets nodeAt _ _ member lands
    obtain ⟨_, emitted⟩ := table.queue_idle offsets nodeAt table.obligations (resolved.1, 0) blocked
    obtain ⟨edges, remarks, gains, count, total⟩ :=
      table.queue_gains offsets nodeAt table.obligations (resolved.1, 0)
    have noEdge : edges = [] := by
      rw [← List.length_eq_zero_iff]
      omega
    subst noEdge
    refine ⟨emitted, remarks, gains, ?_⟩
    rw [List.length_nil] at total
    omega

/-- An output that is owed twice, a jump that an alias leads to the same instruction, and jumps to a
nested offset and to none, on a graph that connects one of the outputs already. -/
theorem resolve_conserves_mixed :
    let calls : List Call := [.register ⟨0, "then", 0⟩, .register ⟨1, "then", 9⟩,
      .register ⟨0, "then", 0⟩, .merge 9 0, .register ⟨2, "then", 1⟩, .register ⟨3, "then", 4⟩,
      .register ⟨5, "then", 0⟩]
    let table := (run calls).table
    let offsets : OffsetTable := ⟨[(0, ⟨0, 0, "EX_Return"⟩), (1, ⟨0, 1, "EX_Self"⟩)], 2⟩
    let nodeAt (position : Nat) : Option NodeId := if position = 0 then some 6 else none
    let g : Graph := { edges := #[⟨.execution, 5, "then", 4, executePin⟩] }
    let resolved := table.resolve offsets nodeAt g
    table.GetsEdge offsets nodeAt g 0 6 ∧ table.GetsEdge offsets nodeAt g 1 6 ∧
      (∀ place, place = 2 ∨ place = 3 ∨ place = 4 ∨ place = 5 →
        ¬ table.GetsEdge offsets nodeAt g place 6) ∧
      g.Single ∧ resolved.1.Single ∧
      (table.resolve offsets nodeAt resolved.1).2 = 0 := by
  intro calls table offsets nodeAt g resolved
  obtain ⟨_, _, gets, single, again, _⟩ := resolve_conserves calls offsets nodeAt g
  have start : (∃ site, offsets.get? 0 = some site ∧ site.isTopLevel = true ∧
      nodeAt site.position = some 6) := ⟨⟨0, 0, "EX_Return"⟩, rfl, rfl, rfl⟩
  have first : table.GetsEdge offsets nodeAt g 0 6 := by
    refine (gets 0 ⟨0, "then", 0⟩ 6 rfl).mpr ⟨start, ?_, fun j before => absurd before (by omega)⟩
    simp [Graph.Open, g]
  have second : table.GetsEdge offsets nodeAt g 1 6 := by
    refine (gets 1 ⟨1, "then", 0⟩ 6 rfl).mpr ⟨start, by simp [Graph.Open, g], ?_⟩
    intro j before earlier found source
    obtain rfl : j = 0 := by omega
    cases found
    cases source
  have distinct : g.Single := by simp [Graph.Single, g]
  refine ⟨first, second, ?_, distinct, single distinct, again⟩
  rintro place (rfl | rfl | rfl | rfl) got
  · exact ((gets 2 ⟨0, "then", 0⟩ 6 rfl).mp got).2.2 0 (by omega) _ rfl rfl rfl 6 first
  · obtain ⟨⟨site, found, top, _⟩, _⟩ := (gets 3 ⟨2, "then", 1⟩ 6 rfl).mp got
    cases found
    cases top
  · obtain ⟨⟨site, found, _⟩, _⟩ := (gets 4 ⟨3, "then", 4⟩ 6 rfl).mp got
    cases found
  · obtain ⟨_, free, _⟩ := (gets 5 ⟨5, "then", 0⟩ 6 rfl).mp got
    exact free ⟨.execution, 5, "then", 4, executePin⟩ (by simp [g]) rfl rfl rfl

end JumpTable

end ScriptFlow
