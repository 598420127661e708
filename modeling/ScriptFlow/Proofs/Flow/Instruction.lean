import ScriptFlow.Proofs.Expr.Offsets
import ScriptFlow.Proofs.Flow.Parts
import ScriptFlow.Proofs.Jump.Aliases
import ScriptFlow.Proofs.Value.Sharing

/-! Building the node of an instruction. The node gets its parts one after the other: pins, jumps
that wait for their targets, and values that feed its inputs. In the end it has exactly the pins of
its parts, every output waits for the offset at which it continues, and every input is fed by the
one value that the table has for its operand; nothing that was there before has changed. -/
namespace ScriptFlow

variable {mode : GraphMode} {isOpen : NodeId → Prop} {g g' : Graph}
  {values values' : List (Expr String × NodeId)} {id : NodeId} {label : String} {unmodeled : Bool}
  {parts : List ExecPart} {offset next position : Nat}

theorem pin?_isSome (node : Node) (pin : Pin) :
    (node.pin? pin.name pin.direction).isSome = hasPin node.pins pin := by
  rw [Bool.eq_iff_iff]
  simp [Node.pin?, hasPin, List.find?_isSome]

/-- A pin goes to the end of the pins of a node, unless it is there. -/
private theorem withPin_eq (node : Node) (pin : Pin) : node.withPin pin =
    { node with pins := if hasPin node.pins pin then node.pins else node.pins ++ [pin] } := by
  rw [Node.withPin, pin?_isSome]
  by_cases present : hasPin node.pins pin <;> simp [present, Node.pushPin]

/-- The node of an instruction shows the given parts: it has their pins, and each input is fed by
the one value that the table has for its operand. -/
structure Graph.Equipped (g : Graph) (values : List (Expr String × NodeId)) (id : NodeId)
    (offset : Nat) (label : String) (unmodeled : Bool) (parts : List ExecPart) : Prop where
  node : g.node? id = some
    { id, label, kind := .instruction offset, pins := execPins parts, unmodeled }
  fed : ∀ pin operand, ExecPart.input pin operand ∈ parts →
    ∃ source, g.dataSources id pin = [source] ∧ Listed values operand source
  bare : ∀ pin, pin ∉ supplyNames parts → g.dataSources id pin = []

namespace Graph.Equipped

theorem mono (equipped : g.Equipped values id offset label unmodeled parts)
    (more : values ⊆ values') (nodes : g'.node? id = g.node? id)
    (sources : ∀ pin, g'.dataSources id pin = g.dataSources id pin) :
    g'.Equipped values' id offset label unmodeled parts where
  node := nodes.trans equipped.node
  fed pin operand member := by
    obtain ⟨source, only, listed⟩ := equipped.fed pin operand member
    exact ⟨source, (sources pin).trans only, listed.mono more⟩
  bare pin absent := (sources pin).trans (equipped.bare pin absent)

theorem canAddPin (equipped : g.Equipped values id offset label unmodeled parts) (name : String)
    (direction : Direction) (kind : FlowKind) :
    g.canAddPin id name direction = !hasPin (execPins parts) ⟨name, direction, kind⟩ := by
  have present := pin?_isSome
    { id, label, kind := .instruction offset, pins := execPins parts, unmodeled }
    ⟨name, direction, kind⟩
  simp only [Graph.canAddPin, equipped.node, ← present, Option.not_isSome]

/-- A part that feeds nothing may change the pins and nothing else. -/
theorem append (equipped : g.Equipped values id offset label unmodeled parts) {part : ExecPart}
    (supply : part.supply? = none) (edges : g'.edges = g.edges)
    (node : g'.node? id = some
      { id, label, kind := .instruction offset, pins := execPins (parts ++ [part]), unmodeled }) :
    g'.Equipped values id offset label unmodeled (parts ++ [part]) where
  node := node
  fed name operand member := by
    have earlier : ExecPart.input name operand ∈ parts := by
      rcases List.mem_append.mp member with member | member
      · exact member
      · rw [← List.mem_singleton.mp member] at supply
        cases supply
    rw [dataSources_congr edges]
    exact equipped.fed name operand earlier
  bare name absent := by
    rw [dataSources_congr edges]
    exact equipped.bare name fun member => absent (by simp [member])

theorem node?_addPin (equipped : g.Equipped values id offset label unmodeled parts)
    (part : ExecPart) (pin : Pin) (asks : part.pin? = some pin) :
    (g.addPin id pin.name pin.direction pin.kind).node? id = some
      { id, label, kind := .instruction offset, pins := execPins (parts ++ [part]), unmodeled } := by
  rw [addPin_eq_modifyNode, node?_modifyNode, if_pos rfl, equipped.node, execPins_append,
    Option.map_some, withPin_eq, pinsWith, asks]

/-- An input that is fed with the value of its operand. -/
theorem connect (equipped : g.Equipped values id offset label unmodeled parts) {pin : String}
    {operand : Expr String} {value : NodeId} (fresh : pin ∉ supplyNames parts)
    (more : values ⊆ values') (listed : Listed values' operand value)
    (node : g'.node? id = (g.addPin id pin .input .data).node? id)
    (sources : ∀ name, g'.dataSources id name = g.dataSources id name) :
    (g'.connectData value id pin).Equipped values' id offset label unmodeled
      (parts ++ [.input pin operand]) where
  node := node.trans (equipped.node?_addPin (.input pin operand) ⟨pin, .input, .data⟩ rfl)
  fed name other member := by
    rw [dataSources_connectData, sources]
    rcases List.mem_append.mp member with member | member
    · have different : pin ≠ name := by
        rintro rfl
        exact fresh (List.mem_map_of_mem (mem_suppliesOf.mpr member))
      obtain ⟨source, only, standing⟩ := equipped.fed name other member
      exact ⟨source, by simp [only, different], standing.mono more⟩
    · cases List.mem_singleton.mp member
      exact ⟨value, by simp [equipped.bare pin fresh], listed⟩
  bare name absent := by
    rw [supplyNames_append, List.mem_append, not_or] at absent
    have different : pin ≠ name := by
      rintro rfl
      exact absent.2 (by simp [supplyNames, suppliesOf, ExecPart.supply?])
    rw [dataSources_connectData, sources, equipped.bare name absent.1]
    simp [different]

end Graph.Equipped

/-! ### Parts, one after the other -/

/-- The outputs of an instruction as jumps that its node owes. -/
def Instruction.owes (i : Instruction String) (id : NodeId) (parts : List ExecPart) :
    List Obligation :=
  (flowsOf i.next parts).map fun flow => ⟨id, flow.1, flow.2⟩

/-- A build that goes on from an earlier one with the node of an instruction, some of whose parts are
done: the node has these parts, its outputs so far are owed after what was owed before, and but for
the node only values are new. -/
structure Build.Working (base : Build) (mode : GraphMode) (isOpen : NodeId → Prop)
    (pairs : List (Nat × Nat)) (owed : List Obligation) (i : Instruction String) (label : String)
    (unmodeled : Bool) (done : List ExecPart) (b : Build) : Prop where
  shares : Shares mode isOpen b.graph b.values
  equipped : b.graph.Equipped b.values base.graph.nextId i.offset label unmodeled done
  accounts : b.jumps.Accounts pairs (owed ++ i.owes base.graph.nextId done)
  grows : base.Grows (· = base.graph.nextId) b
  execNodes : b.execNodes = base.execNodes ++ [(i.position, base.graph.nextId)]

/-- A jump is owed exactly when its output could be added. -/
theorem Build.addFlow_eq (b : Build) (id : NodeId) (pin : String) (target : Nat) :
    b.addFlow id pin target = { b with
      graph := b.graph.addPin id pin .output .execution
      jumps := if b.graph.canAddPin id pin .output then b.jumps.register id pin target
        else b.jumps } := by
  unfold Build.addFlow Graph.addPin
  split <;> rfl

namespace Build.Working

variable {base b : Build} {pairs : List (Nat × Nat)} {owed : List Obligation}
  {i : Instruction String} {done : List ExecPart}

theorem malformedLatent (working : base.Working mode isOpen pairs owed i label unmodeled done b)
    (function : String) :
    base.Working mode isOpen pairs owed i label unmodeled (done ++ [.malformedLatent function])
      (b.onGraph (·.diagnose (.malformedLatent function i.offset))) where
  shares := working.shares.diagnose _
  equipped := by
    refine working.equipped.append rfl rfl ?_
    rw [execPins_append]
    exact working.equipped.node
  accounts := by
    rw [Instruction.owes, flowsOf_append]
    exact working.accounts
  grows := working.grows.diagnose _
  execNodes := working.execNodes

theorem enter (working : base.Working mode isOpen pairs owed i label unmodeled done b) :
    base.Working mode isOpen pairs owed i label unmodeled (done ++ [.enter])
      (b.onGraph (·.addPin base.graph.nextId executePin .input .execution)) where
  shares := working.shares.addPin (working.shares.aside working.equipped.node (by simp)) _ _ _
  equipped := working.equipped.append rfl (Graph.edges_addPin ..)
    (working.equipped.node?_addPin .enter ⟨executePin, .input, .execution⟩ rfl)
  accounts := by
    rw [Instruction.owes, flowsOf_append]
    exact working.accounts
  grows := working.grows.addPin (Nat.le_refl _) _ _ _
  execNodes := working.execNodes

/-- An output is added and owed together, or it was there and owed already. -/
theorem addFlow (working : base.Working mode isOpen pairs owed i label unmodeled done b)
    {part : ExecPart} {pin : String} {target : Nat} (flow : part.flow? i.next = some (pin, target))
    (asks : part.pin? = some ⟨pin, .output, .execution⟩) (supply : part.supply? = none) :
    base.Working mode isOpen pairs owed i label unmodeled (done ++ [part])
      (b.addFlow base.graph.nextId pin target) := by
  have present := hasPin_output (execPins_outputs i.next done) pin
  rw [addFlow_eq, working.equipped.canAddPin pin .output .execution]
  refine ⟨working.shares.addPin (working.shares.aside working.equipped.node (by simp)) _ _ _,
    working.equipped.append supply (Graph.edges_addPin ..)
      (working.equipped.node?_addPin part ⟨pin, .output, .execution⟩ asks),
    ?_, ?_, working.execNodes⟩
  · rw [Instruction.owes, flowsOf_append, flowsWith, flow]
    by_cases here : pin ∈ (flowsOf i.next done).map (·.1)
    · simpa [here, present.mpr here, Instruction.owes] using working.accounts
    · have added := working.accounts.register base.graph.nextId pin target
      simpa [here, mt present.mp here, Instruction.owes] using added
  · exact (working.grows.addPin (Nat.le_refl _) pin .output .execution).same rfl rfl rfl

/-- An input is fed by the value of its operand, which the table has from then on. -/
theorem input (working : base.Working mode isOpen pairs owed i label unmodeled done b) {pin : String}
    {operand : Expr String} (known : operand.known = true) (fresh : pin ∉ supplyNames done) :
    ∃ value after,
      (b.onGraph (·.addPin base.graph.nextId pin .input .data)).value mode operand =
        (.ok value, after) ∧
      base.Working mode isOpen pairs owed i label unmodeled (done ++ [.input pin operand])
        (after.onGraph (·.connectData value base.graph.nextId pin)) := by
  have aside := working.shares.aside working.equipped.node (by simp)
  obtain ⟨value, after, asked, shared, listed, _⟩ :=
    Shares.value (b := b.onGraph (·.addPin base.graph.nextId pin .input .data))
      (working.shares.addPin aside pin .input .data) known
  have kept : (b.onGraph (·.addPin base.graph.nextId pin .input .data)).Keeps after := by
    have keeps := (b.onGraph (·.addPin base.graph.nextId pin .input .data)).value_keeps mode operand
    rwa [asked] at keeps
  have present : base.graph.nextId <
      (b.onGraph (·.addPin base.graph.nextId pin .input .data)).graph.nextId := by
    simpa using Graph.node?_lt working.equipped.node
  have equipped := working.equipped.connect fresh kept.values.subset listed
    (kept.nodes _ present) fun name =>
      (kept.dataSources present name).trans (Graph.dataSources_congr (by simp) _ name)
  refine ⟨value, after, asked, ?_, equipped, ?_, ?_, ?_⟩
  · exact shared.connectData (shared.aside equipped.node (by simp)) (Graph.node?_lt equipped.node)
      value pin
  · rw [Instruction.owes, flowsOf_append, Build.onGraph_jumps, kept.jumps]
    exact working.accounts
  · have grown := working.grows.addPin (Nat.le_refl _) pin .input .data
    exact (grown.trans (kept.toGrows.imp fun _ => False.elim)).connectData (Nat.le_refl _) value pin
  · rw [Build.onGraph_execNodes, kept.execNodes]
    exact working.execNodes

end Build.Working

/-- The parts of an instruction are all done, if they are sound. -/
private theorem addParts_working {base b : Build} {pairs : List (Nat × Nat)}
    {owed : List Obligation}
    {i : Instruction String} {done rest : List ExecPart} (sound : SoundParts (done ++ rest))
    (working : base.Working mode isOpen pairs owed i label unmodeled done b) :
    ∃ after, Build.addParts mode base.graph.nextId i.offset i.next rest b = .ok after ∧
      base.Working mode isOpen pairs owed i label unmodeled (done ++ rest) after := by
  induction rest generalizing done b with
  | nil => exact ⟨b, rfl, by simpa using working⟩
  | cons part rest ih =>
    have shifted : done ++ part :: rest = (done ++ [part]) ++ rest := by simp
    rw [shifted] at sound ⊢
    cases part with
    | enter => exact ih sound working.enter
    | next pin => exact ih sound (working.addFlow rfl rfl rfl)
    | jump pin target => exact ih sound (working.addFlow rfl rfl rfl)
    | input pin operand =>
      have known : operand.known = true := sound.known pin operand (by simp)
      have fresh : pin ∉ supplyNames done := by
        have distinct := sound.distinct
        rw [supplyNames_append, supplyNames_append, List.append_assoc, List.nodup_append] at distinct
        have own : pin ∈ supplyNames [ExecPart.input pin operand] := by
          simp [supplyNames, suppliesOf, ExecPart.supply?]
        exact fun member => distinct.2.2 pin member pin (List.mem_append_left _ own) rfl
      obtain ⟨value, after, asked, workingAfter⟩ := working.input known fresh
      rw [Build.addParts, asked]
      exact ih sound workingAfter
    | malformedLatent function => exact ih sound (working.malformedLatent function)

/-- Titling the node of an instruction, or marking it as untitled, is the last change it sees. -/
private theorem closeInstruction_working {base b : Build} {pairs : List (Nat × Nat)}
    {owed : List Obligation} {i : Instruction String} {done : List ExecPart} (title : Option String)
    (token shown : String)
    (working : base.Working mode isOpen pairs owed i (Build.instructionLabel i.offset shown) false
      done b) :
    base.Working mode isOpen pairs owed i (Build.instructionLabel i.offset (title.getD shown))
      title.isNone done (b.closeInstruction base.graph.nextId i.offset title token) := by
  have aside := working.shares.aside working.equipped.node (by simp)
  cases title with
  | some title =>
    refine ⟨working.shares.modifyNode aside fun _ => rfl, ?_, working.accounts,
      working.grows.modifyNode (Nat.le_refl _) fun _ => rfl, working.execNodes⟩
    refine ⟨?_, working.equipped.fed, working.equipped.bare⟩
    simp [Build.closeInstruction, Graph.relabel, working.equipped.node]
  | none =>
    have marked : Shares mode isOpen (b.graph.markUnmodeled base.graph.nextId) b.values :=
      working.shares.modifyNode aside fun _ => rfl
    have grown : base.Grows _ (b.onGraph (·.markUnmodeled base.graph.nextId)) :=
      working.grows.modifyNode (Nat.le_refl _) fun _ => rfl
    refine ⟨marked.diagnose _, ?_, working.accounts, grown.diagnose _, working.execNodes⟩
    refine ⟨?_, working.equipped.fed, working.equipped.bare⟩
    simp [Build.closeInstruction, Graph.markUnmodeled, working.equipped.node]

/-- The title of an instruction node, if the operation that is shown has a shape of its own. -/
def Instruction.title (i : Instruction String) (settings : DecodeSettings) : Option String :=
  ((i.expr.shown settings.mode).execShape settings).title

/-- A known instruction always gets its node, with all of its parts and its title. -/
theorem addInstruction_working {b : Build} {pairs : List (Nat × Nat)} {owed : List Obligation}
    {settings : DecodeSettings} {i : Instruction String} (known : i.expr.known = true)
    (shared : Shares settings.mode isOpen b.graph b.values) (accounts : b.jumps.Accounts pairs owed) :
    ∃ after, b.addInstruction settings i.position i.offset i.expr.bytes i.expr = .ok after ∧
      b.Working settings.mode isOpen pairs owed i
        (Build.instructionLabel i.offset ((i.title settings).getD i.expr.tokenName))
        (i.title settings).isNone (i.expr.execParts settings) after := by
  let opened : Build :=
    { b with
      graph := b.graph.addNode (Build.instructionLabel i.offset i.expr.tokenName)
        (.instruction i.offset)
      execNodes := b.execNodes ++ [(i.position, b.graph.nextId)] }
  have start : b.Working settings.mode isOpen pairs owed i
      (Build.instructionLabel i.offset i.expr.tokenName) false [] opened := by
    refine ⟨shared.addNode _ (by simp), ⟨by simp [opened, execPins], by simp, fun pin _ => ?_⟩,
      ?_, ?_, rfl⟩
    · exact shared.dataSources_nextId pin
    · simpa [Instruction.owes, flowsOf] using accounts
    · have grown : b.Grows (· = b.graph.nextId) (b.onGraph (·.addNode
          (Build.instructionLabel i.offset i.expr.tokenName) (.instruction i.offset))) :=
        (Build.Grows.refl b).addNode _ (.inr rfl)
      exact grown.same rfl rfl rfl
  have sound : SoundParts ([] ++ i.expr.execParts settings) := execParts_sound settings known
  obtain ⟨built, run, working⟩ := addParts_working sound start
  refine ⟨_, ?_, closeInstruction_working (i.title settings) (i.expr.shown settings.mode).tokenName
    i.expr.tokenName working⟩
  have parts : Build.addParts settings.mode b.graph.nextId i.offset (i.offset + i.expr.bytes)
      (i.expr.execParts settings) opened = .ok built := run
  simp only [Build.addInstruction]
  rw [parts]
  rfl

end ScriptFlow
