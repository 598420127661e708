import ScriptFlow.Proofs.Value.Sharing

/-! Reading a value back from the graph. A reader starts at a node, notes what it shows, and goes
on at the one source of each input. What is read at the node of an operand is the picture of the
operand, as if every operand had nodes of its own: sharing does not show. -/
namespace ScriptFlow

/-- What is read from the graph at a node: its label, its lines and its mark, and at each of its
inputs, in order, what is read at the one value that feeds it. -/
inductive Graph.Reads (g : Graph) : NodeId → Picture → Prop
  | node {id : NodeId} {node : Node} {inputs : List (String × Picture)} (sources : String → NodeId)
    (found : g.node? id = some node)
    (names : inputs.map (·.1) = node.inputs.map (·.name))
    (only : ∀ pin ∈ node.inputs, g.dataSources id pin.name = [sources pin.name])
    (fed : ∀ input ∈ inputs, Reads g (sources input.1) input.2) :
    Reads g id (.node node.label node.annotations node.unmodeled inputs)

variable {mode : GraphMode} {g g' : Graph} {values : List (Expr String × NodeId)} {id : NodeId}
  {p p' : Picture}

namespace Graph.Reads

/-- Reading depends on the nodes and on what feeds their inputs. -/
theorem congr (nodes : ∀ id, g'.node? id = g.node? id)
    (sources : ∀ id pin, g'.dataSources id pin = g.dataSources id pin) (reads : g.Reads id p) :
    g'.Reads id p := by
  induction reads with
  | node feeding found names only fed ih =>
    refine .node feeding ((nodes _).trans found) names (fun pin member => ?_) ih
    rw [sources, only pin member]

private theorem inputs_ext {first second : List (String × Picture)}
    (names : first.map (·.1) = second.map (·.1))
    (pictures : ∀ a ∈ first, ∀ b ∈ second, a.1 = b.1 → a.2 = b.2) : first = second := by
  induction first generalizing second with
  | nil => simpa using names.symm
  | cons a rest ih =>
    cases second with
    | nil => cases names
    | cons b others =>
      obtain ⟨name, names⟩ := List.cons.inj names
      have same : a = b := Prod.ext name (pictures a (by simp) b (by simp) name)
      have later : rest = others := ih names fun a aMember b bMember =>
        pictures a (by simp [aMember]) b (by simp [bMember])
      rw [same, later]

/-- At one node only one picture is read. -/
theorem unique (first : g.Reads id p) (second : g.Reads id p') : p = p' := by
  induction first generalizing p' with
  | @node id node inputs sources found names only fed ih =>
    cases second with
    | @node _ node' inputs' sources' found' names' only' fed' =>
      rw [found] at found'
      cases found'
      have same : inputs = inputs' := by
        refine inputs_ext (names.trans names'.symm) fun a aMember b bMember name => ?_
        have named : a.1 ∈ node.inputs.map (·.name) := names ▸ List.mem_map_of_mem aMember
        obtain ⟨pin, pinMember, pinName⟩ := List.mem_map.mp named
        have feeding := (only pin pinMember).symm.trans (only' pin pinMember)
        rw [pinName] at feeding
        refine ih a aMember ?_
        rw [(List.cons.inj feeding).1, name]
        exact fed' b bMember
      rw [same]

end Graph.Reads

private theorem valuePins_inputs (parts : List (ValuePart ValueTree)) :
    (valuePins parts).filter (·.direction = .input) =
      (inputNames parts).map fun name => ⟨name, .input, .data⟩ := by
  simp [valuePins, List.filter_map, Function.comp_def]

/-- At the node of a known operand its picture can be read. -/
theorem Shares.reads (shared : Shares mode (fun _ => False) g values) {e : Expr String}
    (known : e.known = true) (listed : Listed values e id) : g.Reads id (e.picture mode) := by
  unfold Expr.picture
  generalize same : e.valueTree mode = tree
  induction tree generalizing e id with
  | gap opcode =>
    obtain ⟨shape, own, _⟩ := valueTree_of_known mode known
    rw [own] at same
    cases same
  | node operand title token parts ih =>
    obtain ⟨ownShape, own, sound⟩ := valueTree_of_known mode known
    obtain ⟨shape, wiredOwn, dressed⟩ := shared.wired_of_listed known listed not_false
    rw [own] at same wiredOwn
    cases same
    cases wiredOwn
    have inputs := valuePins_inputs parts
    rw [ValueTree.picture, partPictures_eq_map]
    refine .node (fun pin => (g.dataSources id pin).headD 0) dressed.node ?_ ?_ ?_
    · simp only [Node.inputs, Node.pinsFacing, inputs, inputNames, List.map_map]
      rfl
    · intro pin member
      simp only [Node.inputs, Node.pinsFacing, inputs] at member
      obtain ⟨name, named, rfl⟩ := List.mem_map.mp member
      obtain ⟨⟨_, tree⟩, fed, rfl⟩ := List.mem_map.mp named
      obtain ⟨source, only, _⟩ := dressed.fed _ tree (mem_inputsOf.mp fed)
      simp [only]
    · intro input member
      obtain ⟨⟨pin, tree⟩, fed, rfl⟩ := List.mem_map.mp member
      have part := mem_inputsOf.mp fed
      obtain ⟨source, only, stands⟩ := dressed.fed pin tree part
      obtain ⟨feeding, feedingKnown, rfl⟩ := sound.fed pin tree part
      obtain ⟨feedingShape, feedingOwn, _⟩ := valueTree_of_known mode feedingKnown
      rw [feedingOwn] at stands
      simpa [only] using ih pin _ part feedingKnown stands rfl

/-- What is read at a node is the picture of an operand, and nothing else. -/
def Graph.Shows (g : Graph) (mode : GraphMode) (id : NodeId) (e : Expr String) : Prop :=
  ∀ p, g.Reads id p ↔ p = e.picture mode

theorem Graph.Shows.congr {e : Expr String} (nodes : ∀ id, g'.node? id = g.node? id)
    (sources : ∀ id pin, g'.dataSources id pin = g.dataSources id pin)
    (shows : g.Shows mode id e) : g'.Shows mode id e := by
  intro p
  rw [← shows p]
  constructor
  · exact .congr (fun id => (nodes id).symm) fun id pin => (sources id pin).symm
  · exact .congr nodes sources

/-- The node of a known operand shows the operand, whatever else the graph holds. -/
theorem Shares.shows (shared : Shares mode (fun _ => False) g values) {e : Expr String}
    (known : e.known = true) (listed : Listed values e id) : g.Shows mode id e := by
  intro p
  constructor
  · intro reads
    exact reads.unique (shared.reads known listed)
  · rintro rfl
    exact shared.reads known listed

end ScriptFlow
