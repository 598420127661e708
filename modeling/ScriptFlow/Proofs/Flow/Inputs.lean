import ScriptFlow.Proofs.Flow.Finish
import ScriptFlow.Proofs.Value.Reading

/-! The operands of a finished graph. Values that were placed before the instructions show their
operands in the finished graph too, and each data input of an instruction is fed by one value, which
shows the operand that the instruction was written with. -/
namespace ScriptFlow

/-- Entries are not values. -/
theorem addEntries_values (job : Job) (b : Build) : (job.addEntries b).values = b.values := by
  refine addEntries_preserves (fun c => c.values = b.values) ?_ ?_ job rfl
  · intro c name start before
    exact before
  · intro c name entry start before
    exact before

/-- Only known streams have graphs. -/
private theorem known_of_finish {job : Job} {start : Build} {g : Graph}
    (built : job.finish start = .ok g) :
    ∀ e ∈ job.stream, e.known = true := by
  rw [← knownAll_iff, ← OffsetTable.build_isOk]
  cases table : OffsetTable.build job.stream with
  | ok offsets => rfl
  | error gap => simp [Job.finish, table, bind, Except.bind] at built

namespace Build.Finished

variable {settings : DecodeSettings} {stream : List (Expr String)} {entries : List Entry}
  {kept : List Kept} {pairs : List (Nat × Nat)} {b : Build} {g : Graph}

/-- In the finished graph the node of a known operand shows the operand. -/
theorem shows (finished : b.Finished settings (fun _ => False) stream entries kept pairs g)
    {e : Expr String} {id : NodeId} (known : e.known = true) (listed : Listed b.values e id) :
    g.Shows settings.mode id e :=
  (finished.records.shares.shows known listed).congr finished.node?_eq finished.connected.sources

/-- The data inputs of an instruction are those of its parts, and each is fed by one value, which
shows the operand there. -/
theorem supplied (finished : b.Finished settings (fun _ => False) stream entries kept pairs g)
    {k : Kept} (member : k ∈ kept) {node : Node} (found : g.node? k.node = some node) :
    (node.inputs.filter (·.kind = .data)).map (·.name) = supplyNames (k.parts settings) ∧
      ∀ supply ∈ suppliesOf (k.parts settings),
        ∃ source, g.dataSources k.node supply.1 = [source] ∧
          g.Shows settings.mode source supply.2 := by
  obtain ⟨sound, presented⟩ := finished.equipped member
  refine ⟨?_, fun supply supplyMember => ?_⟩
  · rw [presented.node] at found
    cases found
    have inputs := execPins_inputs sound.distinct sound.free
    simp only [Node.inputs, Node.pinsFacing, List.filter_filter]
    simp only [Bool.decide_and, Bool.and_comm] at inputs ⊢
    rw [inputs, List.map_map]
    exact List.map_id _
  · have part := mem_suppliesOf.mp supplyMember
    obtain ⟨source, only, listed⟩ := presented.fed supply.1 supply.2 part
    exact ⟨source, only, finished.shows (sound.known _ _ part) listed⟩

end Build.Finished

/-- Sharing does not show. After any run of calls on known operands the node of each operand shows
it; one more call for a known operand succeeds with a node that shows that operand, and all earlier
nodes still show theirs. In every graph that is then finished they do so as well, and each data input
of each instruction is fed by one value, which shows the operand that the input was made for. -/
theorem nodes_show_operands (symbols : Symbols) (mode : GraphMode)
    (operands : List (Expr SymbolRef)) (known : ∀ e ∈ operands, e.known = true) :
    ∃ (nodeOf : Expr SymbolRef → NodeId) (b : Build),
      Build.valueAll mode (operands.map symbols.resolve) {} =
        (operands.map fun e => .ok (nodeOf e), b) ∧
      (∀ e ∈ operands, b.graph.Shows mode (nodeOf e) (symbols.resolve e)) ∧
      (∀ e : Expr SymbolRef, e.known = true →
        ∃ id after, b.value mode (symbols.resolve e) = (.ok id, after) ∧
          after.graph.Shows mode id (symbols.resolve e) ∧
          ∀ earlier ∈ operands,
            after.graph.Shows mode (nodeOf earlier) (symbols.resolve earlier)) ∧
      ∀ (job : Job) (g : Graph), job.settings.mode = mode → job.finish b = .ok g →
        (∀ e ∈ operands, g.Shows mode (nodeOf e) (symbols.resolve e)) ∧
        ∀ id node offset, g.node? id = some node → node.kind = .instruction offset →
          ∃ i ∈ instructions job.stream, i.offset = offset ∧
            (node.inputs.filter (·.kind = .data)).map (·.name) =
              (suppliesOf (i.expr.execParts job.settings)).map (·.1) ∧
            ∀ supply ∈ suppliesOf (i.expr.execParts job.settings),
              ∃ source, g.dataSources id supply.1 = [source] ∧ g.Shows mode source supply.2 := by
  obtain ⟨b, run, shared, listed, _⟩ := valueAll_of_known symbols mode known
  have values : Build.Keeps {} b := by
    have kept := Build.valueAll_keeps mode (operands.map symbols.resolve) {}
    rwa [run] at kept
  have resolved {e : Expr SymbolRef} (eKnown : e.known = true) :
      (symbols.resolve e).known = true := by
    simpa using eKnown
  refine ⟨fun e => nodeIn b.values (symbols.resolve e), b, run, fun e member => ?_,
    fun e eKnown => ?_, ?_⟩
  · exact shared.shows (resolved (known e member)) (listed e member)
  · obtain ⟨id, after, call, sharedAfter, listedAfter, _⟩ := shared.value (resolved eKnown)
    have more : b.values ⊆ after.values := by
      have kept := b.value_keeps mode (symbols.resolve e)
      rw [call] at kept
      exact kept.values.subset
    refine ⟨id, after, call, sharedAfter.shows (resolved eKnown) listedAfter, ?_⟩
    intro earlier member
    exact sharedAfter.shows (resolved (known earlier member)) ((listed earlier member).mono more)
  · rintro job g rfl built
    obtain ⟨entries, entered⟩ := addEntries_records job b
    obtain ⟨g', last, kept, pairs, built', finished, grows⟩ :=
      job.finish_of_known b (entered job.settings _ (.of_values shared values))
        (known_of_finish built)
    rw [built] at built'
    cases built'
    have more : b.values ⊆ last.values := addEntries_values job b ▸ grows.values.subset
    refine ⟨fun e member => ?_, fun id node offset found kind => ?_⟩
    · exact finished.shows (resolved (known e member)) ((listed e member).mono more)
    · obtain ⟨k, member, rfl, rfl⟩ :=
        (finished.isInstruction_iff id offset).mp ⟨node, found, kind⟩
      exact ⟨k.instruction, finished.mem_instructions member, rfl, finished.supplied member found⟩

/-- A variable that is read before the instructions and again by a branch. -/
theorem nodes_show_operands_branch :
    let symbols : Symbols := ⟨fun _ => "Actor.Health", fun _ => "Actor"⟩
    let read (index : SymbolRef) : Expr SymbolRef := .atom (.readVariable .instanceMember index)
    let job : Job := { stream := [.unary (.jumpIfNot 0) (symbols.resolve (read 7))] }
    (∀ e ∈ [read (-2)], e.known = true) ∧
      ∃ (nodeOf : Expr SymbolRef → NodeId) (b : Build) (g : Graph),
        Build.valueAll .plain ([read (-2)].map symbols.resolve) {} =
          ([.ok (nodeOf (read (-2)))], b) ∧
        job.finish b = .ok g ∧
        g.Shows .plain (nodeOf (read (-2))) (symbols.resolve (read (-2))) ∧
        ∃ source, g.dataSources 1 "condition" = [source] ∧
          g.Shows .plain source (symbols.resolve (read 7)) := by
  intro symbols read job
  have known : ∀ e ∈ [read (-2)], e.known = true := by simp [read, Expr.known, Atom.known]
  obtain ⟨nodeOf, b, run, _, _, finished⟩ := nodes_show_operands symbols .plain [read (-2)] known
  have branch : ((job.finish b).toOption.bind fun g => (g.node? 1).map (·.kind)) =
      some (.instruction 0) := by
    have last : b = (Build.valueAll .plain ([read (-2)].map symbols.resolve) {}).2 := by rw [run]
    rw [last]
    subst job read symbols
    decide
  obtain ⟨g, built, isBranch⟩ := Option.bind_eq_some_iff.mp branch
  obtain ⟨node, found, kind⟩ := Option.map_eq_some_iff.mp isBranch
  have graph : job.finish b = .ok g := toOption_eq_some.mp built
  obtain ⟨shown, fed⟩ := finished job g rfl graph
  obtain ⟨i, member, _, _, supplied⟩ := fed 1 node 0 found kind
  cases List.mem_singleton.mp member
  exact ⟨known, nodeOf, b, g, run, graph, shown _ (by simp),
    supplied ("condition", symbols.resolve (read 7)) (List.mem_singleton_self _)⟩

end ScriptFlow
