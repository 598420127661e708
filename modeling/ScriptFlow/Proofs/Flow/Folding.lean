import ScriptFlow.Proofs.Flow.Finish

/-! Folding keeps the control flow. An output of the folded graph leads to an instruction exactly
when the same output of the unfolded graph leads there through instructions that were folded away,
and it leads nowhere exactly when that walk comes to an output without an edge. The walk follows the
chain of folded offsets, which ends because no fold may close a cycle. -/
namespace ScriptFlow

/-- The settings with nothing folded. -/
def DecodeSettings.unfolded (settings : DecodeSettings) : DecodeSettings :=
  { settings with foldTracepoints := false, foldJumps := false }

/-- The same job with nothing folded. -/
def Job.unfolded (job : Job) : Job := { job with settings := job.settings.unfolded }

/-! ### Walking through absent instructions -/

namespace Graph

/-- From an output, following `then` through the instructions that are not present, the first
present one stands at an offset. -/
inductive Lands (g : Graph) (present : Nat → Prop) : NodeId → String → Nat → Prop
  | here {source target : NodeId} {pin : String} {offset : Nat}
    (edge : g.execTarget? source pin = some target) (stands : g.IsInstruction target offset)
    (isPresent : present offset) : Lands g present source pin offset
  | through {source target : NodeId} {pin : String} {offset last : Nat}
    (edge : g.execTarget? source pin = some target) (stands : g.IsInstruction target offset)
    (absent : ¬ present offset) (rest : Lands g present target thenPin last) :
    Lands g present source pin last

/-- From an output, following `then` through the instructions that are not present comes to an
output without an edge. -/
inductive Stalls (g : Graph) (present : Nat → Prop) : NodeId → String → Prop
  | missing {source : NodeId} {pin : String} (edge : g.execTarget? source pin = none) :
    Stalls g present source pin
  | through {source target : NodeId} {pin : String} {offset : Nat}
    (edge : g.execTarget? source pin = some target) (stands : g.IsInstruction target offset)
    (absent : ¬ present offset) (rest : Stalls g present target thenPin) :
    Stalls g present source pin

variable {g : Graph} {present : Nat → Prop} {source : NodeId} {pin : String} {offset offset' : Nat}

/-- Only one instruction is the first present one. -/
theorem Lands.unique (first : g.Lands present source pin offset)
    (second : g.Lands present source pin offset') : offset = offset' := by
  induction first with
  | here edge stands isPresent =>
    cases second with
    | here edge' stands' _ =>
      rw [edge] at edge'
      cases edge'
      exact stands.unique stands'
    | through edge' stands' absent _ =>
      rw [edge] at edge'
      cases edge'
      exact absurd (stands.unique stands' ▸ isPresent) absent
  | through edge stands absent rest ih =>
    cases second with
    | here edge' stands' isPresent =>
      rw [edge] at edge'
      cases edge'
      exact absurd (stands'.unique stands ▸ isPresent) absent
    | through edge' stands' _ rest' =>
      rw [edge] at edge'
      cases edge'
      exact ih rest'

/-- A walk that reaches a present instruction does not come to a missing edge. -/
theorem Lands.not_stalls (lands : g.Lands present source pin offset) :
    ¬ g.Stalls present source pin := by
  induction lands with
  | here edge stands isPresent =>
    intro stalls
    cases stalls with
    | missing none =>
      rw [edge] at none
      cases none
    | through edge' stands' absent _ =>
      rw [edge] at edge'
      cases edge'
      exact absent (stands.unique stands' ▸ isPresent)
  | through edge stands absent rest ih =>
    intro stalls
    cases stalls with
    | missing none =>
      rw [edge] at none
      cases none
    | through edge' stands' _ stalls =>
      rw [edge] at edge'
      cases edge'
      exact ih stalls

end Graph

/-! ### The unfolded construction -/

private theorem foldTarget?_unfolded (settings : DecodeSettings) (offset size : Nat)
    (e : Expr String) :
    Build.foldTarget? settings.unfolded offset size e = none := by
  unfold Build.foldTarget?
  split <;> rfl

variable {settings : DecodeSettings} {isOpen : NodeId → Prop} {entries : List Entry}
  {kept keptAll : List Kept} {pairs pairsAll : List (Nat × Nat)} {stream : List (Expr String)}
  {b bAll : Build} {f u : Graph} {s s' : NodeId} {p : String} {x z : Nat}

/-- With nothing folded, no offset stands in for another. -/
theorem Sifts.pairs_unfolded {all kept : List (Instruction String)}
    (sifts : Sifts settings.unfolded all kept pairs) (x y : Nat) : (x, y) ∉ pairs := by
  intro pair
  obtain ⟨i, _, _, target⟩ := sifts.mem_of_pair pair
  rw [foldTarget?_unfolded] at target
  cases target

/-- With nothing folded, every instruction has a node. -/
theorem Build.Finished.kept_unfolded
    (plain : bAll.Finished settings.unfolded isOpen stream entries keptAll pairsAll u)
    {i : Instruction String} (member : i ∈ instructions stream) : ∃ k ∈ keptAll, k.instruction = i := by
  rcases plain.sifts.kept_or_folded member with member | ⟨target, pair⟩
  · exact List.mem_map.mp member
  · exact absurd pair (plain.sifts.pairs_unfolded _ _)

/-- With nothing folded, an output leads to the instruction at which it continues. -/
theorem Build.Finished.target_unfolded
    (plain : bAll.Finished settings.unfolded isOpen stream entries keptAll pairsAll u)
    (owes : ⟨s, p, x⟩ ∈ owedBy settings.unfolded entries keptAll) (t : NodeId) :
    u.execTarget? s p = some t ↔ ∃ k ∈ keptAll, k.node = t ∧ k.instruction.offset = x := by
  have own : bAll.jumps.canonical x = x :=
    (plain.records.accounts.ends x).eq_of_free (plain.sifts.pairs_unfolded x)
  rw [plain.connected.target _ owes, own]

/-! ### Both constructions side by side -/

/-- Where the chain of folded offsets from an offset ends, the walk in the unfolded graph from an
output that continues at that offset ends too: at the instruction there if it has a node in the
folded graph, and at a missing edge if it has none. -/
private theorem walk_of_arrives (done : b.Finished settings isOpen stream entries kept pairs f)
    (plain : bAll.Finished settings.unfolded isOpen stream entries keptAll pairsAll u)
    (arrives : JumpTable.Arrives pairs x z)
    (owes : ⟨s, p, x⟩ ∈ owedBy settings.unfolded entries keptAll) :
    (f.HasInstruction z → u.Lands f.HasInstruction s p z) ∧
      (¬ f.HasInstruction z → u.Stalls f.HasInstruction s p) := by
  induction arrives generalizing s p with
  | @stay x ends =>
    refine ⟨fun present => ?_, fun absent => .missing ?_⟩
    · obtain ⟨k, member, rfl⟩ := (done.hasInstruction_iff x).mp present
      obtain ⟨k', member', same⟩ := plain.kept_unfolded (done.mem_instructions member)
      refine .here ((plain.target_unfolded owes _).mpr ⟨k', member', rfl, by rw [same]⟩) ?_ present
      exact (plain.isInstruction_iff _ _).mpr ⟨k', member', rfl, by rw [same]⟩
    · rw [Option.eq_none_iff_forall_ne_some]
      intro t leads
      obtain ⟨k, member, _, rfl⟩ := (plain.target_unfolded owes t).mp leads
      -- The instruction there is neither kept nor folded.
      rcases done.sifts.kept_or_folded (plain.mem_instructions member) with kept | ⟨target, pair⟩
      · obtain ⟨k', member', same⟩ := List.mem_map.mp kept
        exact absent ((done.hasInstruction_iff _).mpr ⟨k', member', by rw [same]⟩)
      · exact ends target pair
  | @step x y z pair rest ih =>
    obtain ⟨i, member, rfl, folds⟩ := done.sifts.mem_of_pair pair
    obtain ⟨k, keptMember, rfl⟩ := plain.kept_unfolded member
    have edge := (plain.target_unfolded owes k.node).mpr ⟨k, keptMember, rfl, rfl⟩
    have stands := (plain.isInstruction_iff k.node k.instruction.offset).mpr ⟨k, keptMember, rfl, rfl⟩
    have absent := done.absent_of_pair pair
    have next : ⟨k.node, thenPin, y⟩ ∈ owedBy settings.unfolded entries keptAll := by
      have flows := flowsOf_folded folds settings.unfolded
      refine owed_of_flow keptMember ?_
      simp [Instruction.next, Kept.parts, flows]
    obtain ⟨lands, stalls⟩ := ih next
    exact ⟨fun present => .through edge stands absent (lands present),
      fun missing => .through edge stands absent (stalls missing)⟩

/-- Entries and instructions with nodes in both graphs have the same pins, and their outputs continue
at the same offsets. -/
private theorem owed_of_samePlace (done : b.Finished settings isOpen stream entries kept pairs f)
    (plain : bAll.Finished settings.unfolded isOpen stream entries keptAll pairsAll u)
    {node node' : Node} (found : f.node? s = some node) (found' : u.node? s' = some node')
    (kinds : node.kind = node'.kind) (flows : node.kind ≠ .value) (entry : node.kind = .entry → s = s') :
    node.pins = node'.pins ∧ ∀ p, ⟨p, .output, .execution⟩ ∈ node.pins →
      ∃ x, ⟨s, p, x⟩ ∈ owedBy settings entries kept ∧
        ⟨s', p, x⟩ ∈ owedBy settings.unfolded entries keptAll := by
  have matched : f.Matches u s s' node node' := ⟨found, found', flows, kinds, entry⟩
  rcases matched.place done plain with
    ⟨start, member, rfl, rfl, rfl, rfl⟩ | ⟨k, member, k', member', rfl, rfl, same, pins, pins', _⟩
  · refine ⟨rfl, fun p output => ?_⟩
    cases List.mem_singleton.mp output
    exact ⟨start.start, owed_of_entry member, owed_of_entry member⟩
  · have parts : k.parts settings = k'.parts settings.unfolded := by
      rw [Kept.parts, Kept.parts, same]
      exact (execParts_folds settings false false _).symm
    refine ⟨by rw [pins, pins', parts], fun p output => ?_⟩
    rw [pins, mem_execPins_output k.instruction.next] at output
    obtain ⟨x, flow⟩ := output
    refine ⟨x, owed_of_flow member flow, ?_⟩
    rw [← same, parts] at flow
    exact owed_of_flow member' flow

/-- An output that continues at one offset in both graphs leads, in the folded one, where the walk in
the unfolded one ends. -/
theorem flow_iff (done : b.Finished settings isOpen stream entries kept pairs f)
    (plain : bAll.Finished settings.unfolded isOpen stream entries keptAll pairsAll u)
    (owed : ⟨s, p, x⟩ ∈ owedBy settings entries kept)
    (owed' : ⟨s', p, x⟩ ∈ owedBy settings.unfolded entries keptAll) :
    (∀ o, (∃ t, f.execTarget? s p = some t ∧ f.IsInstruction t o) ↔
      u.Lands f.HasInstruction s' p o) ∧
    (f.execTarget? s p = none ↔ u.Stalls f.HasInstruction s' p) ∧
    ((∃ o, u.Lands f.HasInstruction s' p o) ∨ u.Stalls f.HasInstruction s' p) := by
  have leads := done.leads_iff owed
  have nowhere := done.leads_nowhere_iff owed
  obtain ⟨lands, stalls⟩ := walk_of_arrives done plain (done.records.accounts.ends x) owed'
  by_cases present : f.HasInstruction (b.jumps.canonical x)
  · have walk := lands present
    refine ⟨fun o => ?_, ?_, .inl ⟨_, walk⟩⟩
    · rw [leads o]
      constructor
      · rintro ⟨rfl, _⟩
        exact walk
      · intro other
        obtain rfl := walk.unique other
        exact ⟨rfl, present⟩
    · rw [nowhere]
      exact iff_of_false (not_not_intro present) walk.not_stalls
  · have walk := stalls present
    refine ⟨fun o => ?_, ?_, .inr walk⟩
    · rw [leads o]
      apply iff_of_false
      · rintro ⟨rfl, stands⟩
        exact present stands
      · exact fun other => other.not_stalls walk
    · rw [nowhere]
      exact iff_of_true present walk

/-- Folding keeps the control flow. The instructions of the folded graph are among those of the
unfolded one and the entries are the same. Whatever entry or instruction has a node in the folded
graph has one in the unfolded graph with the same pins, and each of its outputs leads to the first
instruction still present on the walk through those folded away, or nowhere exactly when that walk
comes to a missing edge; the walk always ends in one of these ways. -/
theorem folding_keeps_flow (job : Job) (known : ∀ e ∈ job.stream, e.known = true) :
    ∃ u f, job.unfolded.graph = .ok u ∧ job.graph = .ok f ∧
      (∀ offset, f.HasInstruction offset → u.HasInstruction offset) ∧
      f.entryNodes = u.entryNodes ∧
      (∀ g ∈ [u, f], ∀ edge ∈ g.edges, edge.kind = .execution →
        g.execTarget? edge.source edge.sourcePin = some edge.target) ∧
      (∀ s node, f.node? s = some node → node.kind ≠ .value →
        ∃ s' node', u.node? s' = some node' ∧ node.kind = node'.kind ∧
          (node.kind = .entry → s = s')) ∧
      ∀ s s' node node', f.node? s = some node → u.node? s' = some node' →
        node.kind = node'.kind → node.kind ≠ .value → (node.kind = .entry → s = s') →
        node.pins = node'.pins ∧ ∀ p, ⟨p, .output, .execution⟩ ∈ node.pins →
          (∀ o, (∃ t, f.execTarget? s p = some t ∧ f.IsInstruction t o) ↔
            u.Lands f.HasInstruction s' p o) ∧
          (f.execTarget? s p = none ↔ u.Stalls f.HasInstruction s' p) ∧
          ((∃ o, u.Lands f.HasInstruction s' p o) ∨ u.Stalls f.HasInstruction s' p) := by
  obtain ⟨entries, entered⟩ := addEntries_records job {}
  have foldedEntries := entered job.settings _ (.of_values (.empty _ fun _ => False) (.refl _))
  have plainEntries :=
    entered job.settings.unfolded _ (.of_values (.empty _ fun _ => False) (.refl _))
  obtain ⟨f, b, kept, pairs, foldedRun, done, foldedGrows⟩ :=
    job.finish_of_known {} foldedEntries known
  obtain ⟨u, bAll, keptAll, pairsAll, plainRun, plain, plainGrows⟩ :=
    job.unfolded.finish_of_known {} plainEntries known
  have counterpart {k : Kept} (member : k ∈ kept) : ∃ k' ∈ keptAll, k'.instruction = k.instruction :=
    plain.kept_unfolded (done.mem_instructions member)
  refine ⟨u, f, plainRun, foldedRun, fun offset present => ?_, ?_, ?_, fun s node found flows => ?_,
    fun s s' node node' found found' kinds flows entry => ?_⟩
  · obtain ⟨k, member, rfl⟩ := (done.hasInstruction_iff offset).mp present
    obtain ⟨k', member', same⟩ := counterpart member
    exact (plain.hasInstruction_iff _).mpr ⟨k', member', by rw [same]⟩
  · exact (done.entryNodes foldedEntries foldedGrows).trans
      (plain.entryNodes plainEntries plainGrows).symm
  · simp only [List.mem_cons, List.not_mem_nil, or_false]
    rintro g (rfl | rfl)
    · exact plain.connected.single
    · exact done.connected.single
  · rcases done.recorded found flows with ⟨start, member, rfl, rfl⟩ | ⟨k, member, rfl, kind, _⟩
    · exact ⟨start.node, start.shown, plain.entry_node member, rfl, fun _ => rfl⟩
    · obtain ⟨k', member', same⟩ := counterpart member
      obtain ⟨node', found', kind', _⟩ := plain.kept_node member'
      exact ⟨k'.node, node', found', by rw [kind, kind', same], by simp [kind]⟩
  · obtain ⟨pins, owes⟩ := owed_of_samePlace done plain found found' kinds flows entry
    refine ⟨pins, fun p output => ?_⟩
    obtain ⟨x, owed, owed'⟩ := owes p output
    exact flow_iff done plain owed owed'

/-- The way from the entry through a tracepoint and a jump, both folded away. -/
theorem folding_keeps_flow_tracepoint :
    let job : Job :=
      { settings := { foldTracepoints := true, foldJumps := true }
        stream := [.atom (.marker .tracepoint), .atom (.jump 6), .atom (.marker .endOfScript)]
        entry := some "Main" }
    (∀ e ∈ job.stream, e.known = true) ∧
      ∃ u f, job.unfolded.graph = .ok u ∧ job.graph = .ok f ∧ f.entryNodes = u.entryNodes ∧
        f.execTarget? 0 thenPin = some 1 ∧ f.IsInstruction 1 6 ∧
        u.Lands f.HasInstruction 0 thenPin 6 := by
  intro job
  have known : ∀ e ∈ job.stream, e.known = true := by simp [job, Expr.known, Atom.known]
  obtain ⟨u, f, plainRun, foldedRun, _, entries, _, _, flow⟩ := folding_keeps_flow job known
  have last : (job.graph.toOption.bind fun f => (f.node? 1).map (·.kind)) =
      some (.instruction 6) := by
    subst job
    decide
  have edge : (job.graph.toOption.bind fun f => f.execTarget? 0 thenPin) = some 1 := by
    subst job
    decide
  have start : (job.graph.toOption.bind fun f => f.node? 0) =
      some (Entry.shown ⟨0, "Main", 0⟩) := by
    subst job
    decide
  have plainStart : (job.unfolded.graph.toOption.bind fun u => u.node? 0) =
      some (Entry.shown ⟨0, "Main", 0⟩) := by
    subst job
    decide
  rw [foldedRun] at last edge start
  rw [plainRun] at plainStart
  obtain ⟨_, same⟩ := flow 0 0 _ _ start plainStart rfl (by decide) fun _ => rfl
  have leads := (same thenPin (List.mem_singleton_self _)).1 6
  obtain ⟨node, found, kind⟩ := Option.map_eq_some_iff.mp last
  have stands : f.IsInstruction 1 6 := ⟨node, found, kind⟩
  exact ⟨known, u, f, plainRun, foldedRun, entries, edge, stands, leads.mp ⟨1, edge, stands⟩⟩

end ScriptFlow
