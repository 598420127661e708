import ScriptFlow.Proofs.Flow.Inputs
import ScriptFlow.Proofs.Value.Lookup

/-! A graph is built from normal forms. Every step of the construction reads of an expression only
what its normal form keeps: building from the normal forms of a stream goes through the same states,
but for the operands that the table of values remembers, which are normal forms too. Streams that
are structurally equal have one list of normal forms, and so they have one graph. -/
namespace ScriptFlow

/-- The build with every operand of its table in normal form. -/
def Build.normal (b : Build) : Build :=
  { b with values := b.values.map fun entry => (entry.1.normal, entry.2) }

/-! ### Values -/

namespace Build

@[simp] theorem normal_graph (b : Build) : b.normal.graph = b.graph := rfl

@[simp] theorem normal_jumps (b : Build) : b.normal.jumps = b.jumps := rfl

/-- A build without values is in normal form. -/
private theorem normal_of_bare {b : Build} (bare : b.values = []) : b.normal = b := by
  obtain ⟨graph, values, jumps, execNodes⟩ := b
  subst bare
  rfl

theorem onGraph_normal (b : Build) (change : Graph → Graph) :
    b.normal.onGraph change = (b.onGraph change).normal := rfl

private theorem openValue_normal (b : Build) (operand : Expr String) :
    (b.openValue operand).normal = b.normal.openValue operand.normal := by
  simp [openValue, normal, normal_tokenName]

private theorem closeValue_normal (b : Build) (id : NodeId) (title : Option String)
    (token : String) :
    (b.closeValue id title token).normal = b.normal.closeValue id title token := by
  cases title <;> rfl

end Build

/-- What a call returns, with the build it leaves in normal form. -/
private def settled {α : Type} (outcome : Except ModelGap α × Build) : Except ModelGap α × Build :=
  (outcome.1, outcome.2.normal)

private theorem placeParts_normal {parts : List (ValuePart ValueTree)}
    (each : ∀ pin tree, ValuePart.operand pin tree ∈ parts →
      ∀ b : Build, tree.normal.place b.normal = settled (tree.place b))
    (id : NodeId) (b : Build) :
    placeParts id (normalParts parts) b.normal = settled (placeParts id parts b) := by
  induction parts generalizing b with
  | nil => rfl
  | cons part rest ih =>
    have later := ih fun pin tree member => each pin tree (List.mem_cons_of_mem _ member)
    cases part with
    | operand pin tree =>
      have fed := each pin tree (by simp) (b.onGraph (·.addPin id pin .input .data))
      rw [normalParts, placeParts, placeParts, Build.onGraph_normal, fed]
      rcases tree.place (b.onGraph (·.addPin id pin .input .data)) with ⟨gap | value, after⟩
      · rfl
      · exact later (after.onGraph (·.connectData value id pin))
    | note line => exact later (b.onGraph (·.annotate id line))
    | variableRead name => exact later (b.onGraph (·.registerVariable name id))
    | gap opcode => rfl

/-- Placing the normal form of a tree does what placing the tree does. -/
private theorem place_normal (tree : ValueTree) (b : Build) :
    tree.normal.place b.normal = ((tree.place b).1, (tree.place b).2.normal) := by
  induction tree generalizing b with
  | gap opcode => rfl
  | node operand title token parts ih =>
    have found : findValue operand.normal b.normal.values = findValue operand b.values :=
      findValue_normal operand b.values
    have placed := placeParts_normal ih b.graph.nextId (b.openValue operand)
    rw [Build.openValue_normal] at placed
    simp only [ValueTree.normal, ValueTree.place, found, Build.normal_graph, placed]
    rcases findValue operand b.values with gap | _ | id
    · rfl
    · rcases placeParts b.graph.nextId parts (b.openValue operand) with ⟨gap | done, after⟩
      · rfl
      · simp only [settled, Build.closeValue_normal]
    · rfl

/-- The value node of a normal form is that of the operand. -/
private theorem value_normal (b : Build) (mode : GraphMode) (operand : Expr String) :
    b.normal.value mode operand.normal =
      ((b.value mode operand).1, (b.value mode operand).2.normal) := by
  rw [Build.value, ← valueTree_normal]
  exact place_normal (operand.valueTree mode) b

/-! ### Instructions -/

/-- The part with its operand in normal form. -/
def ExecPart.normal : ExecPart → ExecPart
  | .input pin operand => .input pin operand.normal
  | part => part

/-- The shape with every operand in normal form. -/
def ExecShape.normal (shape : ExecShape) : ExecShape :=
  { shape with parts := shape.parts.map ExecPart.normal }

private theorem resumeOffset?_normal (arguments : List (Expr String)) :
    resumeOffset? (arguments.map Expr.normal) = resumeOffset? arguments := by
  rcases arguments with _ | ⟨first, _ | ⟨second, _ | ⟨third, rest⟩⟩⟩
  · rfl
  · rfl
  · rfl
  · cases third with
    | variadic op members =>
      cases op with
      | struct type =>
        cases members with
        | nil => rfl
        | cons member others =>
          cases member with
          | atom leaf => cases leaf <;> rfl
          | _ => rfl
      | _ => rfl
    | _ => rfl

private theorem inputs_normal (name : Nat → String) (operands : List (Expr String)) :
    ((operands.map Expr.normal).zipIdx.map fun (operand, i) => ExecPart.input (name i) operand) =
      (operands.zipIdx.map fun (operand, i) => ExecPart.input (name i) operand).map
        ExecPart.normal := by
  rw [List.zipIdx_map, List.map_map, List.map_map]
  rfl

theorem callParts_normal (settings : DecodeSettings) (function : String)
    (arguments : List (Expr String)) :
    callParts settings function (arguments.map Expr.normal) =
      (callParts settings function arguments).map ExecPart.normal := by
  have inputs := inputs_normal argumentPin arguments
  unfold callParts
  rw [resumeOffset?_normal]
  split
  · split
    · simp only [inputs, List.map_append, List.map_cons, List.map_nil, ExecPart.normal]
    · simp only [inputs, List.map_append, List.map_cons, List.map_nil, ExecPart.normal]
  · exact inputs

theorem execShape_normal (settings : DecodeSettings) (e : Expr String) :
    e.normal.execShape settings = (e.execShape settings).normal := by
  cases e with
  | atom op =>
    cases op with
    | marker m => cases m <;> rfl
    | _ => rfl
  | unary op a =>
    cases op with
    | wrap w => cases w <;> rfl
    | _ => rfl
  | binary op a b => cases op <;> rfl
  | localizedText source key space => rfl
  | variadic op operands =>
    cases op with
    | call kind target =>
      simp [Expr.normal, Expr.execShape, ExecShape.sequential, ExecShape.normal, callParts_normal,
        ExecPart.normal]
    | virtualCall kind name =>
      simp [Expr.normal, Expr.execShape, ExecShape.sequential, ExecShape.normal, callParts_normal,
        ExecPart.normal]
    | _ => rfl
  | led op leader operands =>
    cases op with
    | assignContainer kind =>
      have elements := inputs_normal (fun i => "element " ++ natText i) operands
      simp only [Expr.normal, normalAll_eq_map, Expr.execShape, ExecShape.sequential,
        ExecShape.normal, elements, List.map_cons, ExecPart.normal]
    | callDelegate target => rfl
  | switch endOffset index cases default => rfl

theorem shown_normal (mode : GraphMode) (e : Expr String) :
    e.normal.shown mode = (e.shown mode).normal := by
  cases mode with
  | plain => rfl
  | pseudoBlueprint =>
    cases e with
    | binary op object member => cases op <;> rfl
    | _ => rfl

private theorem execParts_normal (settings : DecodeSettings) (e : Expr String) :
    e.normal.execParts settings = (e.execParts settings).map ExecPart.normal := by
  have shapes := execShape_normal settings (e.shown settings.mode)
  unfold Expr.execParts
  rw [shown_normal, shapes]
  cases settings.mode with
  | plain => rfl
  | pseudoBlueprint =>
    cases e with
    | binary op object member => cases op <;> rfl
    | _ => rfl

private theorem foldTarget?_normal (settings : DecodeSettings) (offset size : Nat)
    (e : Expr String) :
    Build.foldTarget? settings offset size e.normal = Build.foldTarget? settings offset size e := by
  cases e with
  | atom op => rfl
  | _ => rfl

/-! ### Streams -/

namespace Build

theorem addFlow_normal (b : Build) (id : NodeId) (pin : String) (target : Nat) :
    (b.addFlow id pin target).normal = b.normal.addFlow id pin target := by
  simp only [addFlow_eq]
  rfl

private theorem addParts_normal (mode : GraphMode) (id : NodeId) (offset next : Nat)
    (parts : List ExecPart) (b : Build) :
    addParts mode id offset next (parts.map ExecPart.normal) b.normal =
      (addParts mode id offset next parts b).map Build.normal := by
  induction parts generalizing b with
  | nil => rfl
  | cons part rest ih =>
    cases part with
    | enter => exact ih (b.onGraph (·.addPin id executePin .input .execution))
    | next pin =>
      have later := ih (b.addFlow id pin next)
      rwa [addFlow_normal] at later
    | jump pin target =>
      have later := ih (b.addFlow id pin target)
      rwa [addFlow_normal] at later
    | input pin operand =>
      have asked := value_normal (b.onGraph (·.addPin id pin .input .data)) mode operand
      rw [List.map_cons, ExecPart.normal, addParts, addParts, onGraph_normal, asked]
      rcases (b.onGraph (·.addPin id pin .input .data)).value mode operand with ⟨gap | value, after⟩
      · rfl
      · exact ih (after.onGraph (·.connectData value id pin))
    | malformedLatent function =>
      exact ih (b.onGraph (·.diagnose (.malformedLatent function offset)))

private theorem closeInstruction_normal (b : Build) (id : NodeId) (offset : Nat)
    (title : Option String)
    (token : String) : (b.closeInstruction id offset title token).normal =
      b.normal.closeInstruction id offset title token := by
  cases title <;> rfl

/-- The build with a bare node for the instruction at a position. -/
def withInstruction (b : Build) (position offset : Nat) (token : String) : Build :=
  { b with
    graph := b.graph.addNode (instructionLabel offset token) (.instruction offset)
    execNodes := b.execNodes ++ [(position, b.graph.nextId)] }

theorem addInstruction_eq (b : Build) (settings : DecodeSettings) (position offset size : Nat)
    (e : Expr String) : b.addInstruction settings position offset size e =
      (addParts settings.mode b.graph.nextId offset (offset + size) (e.execParts settings)
        (b.withInstruction position offset e.tokenName)).map fun built =>
          built.closeInstruction b.graph.nextId offset
            ((e.shown settings.mode).execShape settings).title
            (e.shown settings.mode).tokenName := by
  unfold addInstruction withInstruction
  dsimp only
  split
  · rename_i failed
    rw [failed]
    rfl
  · rename_i done
    rw [done]
    rfl

theorem addInstruction_normal (b : Build) (settings : DecodeSettings) (position offset size : Nat)
    (e : Expr String) : b.normal.addInstruction settings position offset size e.normal =
      (b.addInstruction settings position offset size e).map Build.normal := by
  have opens : b.normal.withInstruction position offset e.tokenName =
      (b.withInstruction position offset e.tokenName).normal := rfl
  rw [addInstruction_eq, addInstruction_eq, execParts_normal, shown_normal, execShape_normal,
    normal_tokenName, normal_tokenName, opens, normal_graph, addParts_normal]
  cases addParts settings.mode b.graph.nextId offset (offset + size) (e.execParts settings)
      (b.withInstruction position offset e.tokenName) with
  | error gap => rfl
  | ok built => simp only [Except.map, closeInstruction_normal, ExecShape.normal]

private theorem addOrFold_normal (b : Build) (settings : DecodeSettings)
    (position offset size : Nat)
    (e : Expr String) : b.normal.addOrFold settings position offset size e.normal =
      (b.addOrFold settings position offset size e).map Build.normal := by
  unfold addOrFold
  rw [foldTarget?_normal]
  cases foldTarget? settings offset size e with
  | none => exact addInstruction_normal b settings position offset size e
  | some target =>
    simp only [normal_jumps]
    cases b.jumps.merge? offset target with
    | some jumps => rfl
    | none =>
      exact addInstruction_normal (b.onGraph (·.diagnose (.aliasCycle offset target))) settings
        position offset size e

private theorem addStream_normal (settings : DecodeSettings) (position offset : Nat)
    (stream : List (Expr String)) (b : Build) :
    addStream settings position offset (stream.map Expr.normal) b.normal =
      (addStream settings position offset stream b).map Build.normal := by
  induction stream generalizing position offset b with
  | nil => rfl
  | cons e rest ih =>
    simp only [List.map_cons, addStream, size_normal, addOrFold_normal, bind, Except.bind]
    cases e.size with
    | error gap => rfl
    | ok size =>
      cases step : b.addOrFold settings position offset size e with
      | error gap => simp [step, Except.map]
      | ok after => simpa [step, Except.map] using ih (position + 1) (offset + size) after

end Build

/-! ### Graphs -/

/-- A stream and its normal forms have one graph, or fail alike. -/
theorem graph_normal (job : Job) :
    Job.graph { job with stream := job.stream.map Expr.normal } = job.graph := by
  have entered : (job.addEntries {}).normal = job.addEntries {} :=
    Build.normal_of_bare (addEntries_values job {})
  have built := Build.addStream_normal job.settings 0 0 job.stream (job.addEntries {})
  rw [entered] at built
  have same : Job.addEntries { job with stream := job.stream.map Expr.normal } {} =
      job.addEntries {} := rfl
  simp only [Job.graph, Job.finish, OffsetTable.build_normal, same, built]
  cases OffsetTable.build job.stream with
  | error gap => rfl
  | ok offsets => cases Build.addStream job.settings 0 0 job.stream (job.addEntries {}) <;> rfl

/-- Every known stream has a graph. -/
theorem graph_of_known (job : Job) (known : ∀ e ∈ job.stream, e.known = true) :
    ∃ g, job.graph = .ok g := by
  obtain ⟨entries, entered⟩ := addEntries_records job {}
  have start := entered job.settings _ (.of_values (.empty _ fun _ => False) (.refl _))
  obtain ⟨g, _, _, _, built, _⟩ := job.finish_of_known {} start known
  exact ⟨g, built⟩

/-- Streams of equal expressions are known and have the same normal forms. -/
private theorem normals_of_structurallyEqual {symbols : Symbols}
    {first second : List (Expr SymbolRef)}
    (equal : List.Forall₂ (fun a b => structurallyEqual symbols a b = .ok true) first second) :
    (∀ e ∈ first.map symbols.resolve, e.known = true) ∧
      (first.map symbols.resolve).map Expr.normal =
        (second.map symbols.resolve).map Expr.normal := by
  induction equal with
  | nil => simp
  | @cons a b first second same rest ih =>
    obtain ⟨known, _, normal⟩ := (agrees_true_iff (symbols.resolve a) (symbols.resolve b)).mp same
    obtain ⟨restKnown, restNormal⟩ := ih
    constructor
    · intro e member
      rcases List.mem_cons.mp member with rfl | member
      · exact known
      · exact restKnown e member
    · rw [List.map_cons, List.map_cons, List.map_cons, List.map_cons, normal, restNormal]

/-- A graph depends on its stream only up to structural equality. Two streams of equal expressions,
position by position, have graphs, and these are the same in everything: nodes, edges, readers of
variables and diagnostics. -/
theorem graph_of_structurallyEqual (symbols : Symbols) (job : Job)
    (first second : List (Expr SymbolRef))
    (equal : List.Forall₂ (fun a b => structurallyEqual symbols a b = .ok true) first second) :
    ∃ g, Job.graph { job with stream := first.map symbols.resolve } = .ok g ∧
      Job.graph { job with stream := second.map symbols.resolve } = .ok g := by
  obtain ⟨known, normals⟩ := normals_of_structurallyEqual equal
  obtain ⟨g, built⟩ := graph_of_known { job with stream := first.map symbols.resolve } known
  refine ⟨g, built, ?_⟩
  rw [← graph_normal] at built ⊢
  rwa [← normals]

/-- A member access whose object and bookkeeping are written in two ways, merged into its member. -/
theorem graph_of_structurallyEqual_access :
    let symbols : Symbols := ⟨fun _ => "Actor.Health", fun _ => "Actor"⟩
    let access (skip : UInt32) (index : SymbolRef) : Expr SymbolRef :=
      .binary (.context .failSilent skip index) (.atom (.marker .selfObject))
        (.variadic (.call .math index) [.atom (.readVariable .instanceMember index)])
    let job : Job := { settings := { mode := .pseudoBlueprint }, entry := some "Main" }
    List.Forall₂ (fun a b => structurallyEqual symbols a b = .ok true)
        [access 3 7, .atom (.jump 0)] [access 9 (-2), .atom (.jump 0)] ∧
      ∃ g, Job.graph { job with stream := [access 3 7, .atom (.jump 0)].map symbols.resolve } =
          .ok g ∧
        Job.graph { job with stream := [access 9 (-2), .atom (.jump 0)].map symbols.resolve } =
          .ok g := by
  intro symbols access job
  have equal : List.Forall₂ (fun a b => structurallyEqual symbols a b = .ok true)
      [access 3 7, .atom (.jump 0)] [access 9 (-2), .atom (.jump 0)] := by
    refine .cons ?_ (.cons ?_ .nil)
    · exact (agrees_true_iff _ _).mpr ⟨rfl, rfl, rfl⟩
    · exact (agrees_true_iff _ _).mpr ⟨rfl, rfl, rfl⟩
  exact ⟨equal, graph_of_structurallyEqual symbols job _ _ equal⟩

end ScriptFlow
