import Mathlib.Logic.Relation
import ScriptFlow.Proofs.Value.Frame
import ScriptFlow.Proofs.Value.Lookup
import ScriptFlow.Proofs.Value.Shape

/-! Values are fed by smaller values. The depth of an operand counts how far its tree goes down;
operands with one normal form have one depth, and whatever feeds a node is less deep than its
operand. Sharing can therefore not close a cycle: a node that stands for an equal operand stands for
one of the same depth, however old it is. This needs nothing of the operands, and it holds at every
moment, also when a call fails and leaves nodes without some of their inputs. -/
namespace ScriptFlow

/-! ### Depth -/

mutual

/-- How many nodes lie on the longest way down a tree. -/
def ValueTree.depth : ValueTree → Nat
  | .gap _ => 0
  | .node _ ⟨_, _, parts⟩ => partsDepth parts + 1

/-- The depth of the deepest tree that feeds a node. -/
def partsDepth : List (ValuePart ValueTree) → Nat
  | [] => 0
  | .operand _ tree :: rest => max tree.depth (partsDepth rest)
  | .note _ :: rest => partsDepth rest
  | .variableRead _ :: rest => partsDepth rest
  | .gap _ :: rest => partsDepth rest

end

/-- Whatever feeds a node is less deep. -/
theorem depth_lt_of_fed {operand : Expr String} {title : Option String} {token pin : String}
    {parts : List (ValuePart ValueTree)} {tree : ValueTree}
    (fed : ValuePart.operand pin tree ∈ parts) :
    tree.depth < (ValueTree.node operand ⟨title, token, parts⟩).depth := by
  have bounded : tree.depth ≤ partsDepth parts := by
    induction parts with
    | nil => cases fed
    | cons part rest ih =>
      rcases List.mem_cons.mp fed with rfl | later
      · exact Nat.le_max_left _ _
      · have below := ih later
        cases part <;> simp only [partsDepth] <;> omega
  rw [ValueTree.depth]
  omega

theorem depth_normal (tree : ValueTree) : tree.normal.depth = tree.depth := by
  induction tree with
  | gap opcode => rfl
  | node operand title token parts ih =>
    have same : partsDepth (normalParts parts) = partsDepth parts := by
      induction parts with
      | nil => rfl
      | cons part rest rest_ih =>
        have later := rest_ih fun pin tree member => ih pin tree (List.mem_cons_of_mem _ member)
        cases part with
        | operand pin tree =>
          simp only [normalParts, partsDepth, later, ih pin tree (List.mem_cons_self ..)]
        | _ => simpa only [normalParts, partsDepth] using later
    simp only [ValueTree.normal, ValueTree.depth, same]

/-- The depth of an operand is that of its tree. -/
def Expr.depth (mode : GraphMode) (e : Expr String) : Nat := (e.valueTree mode).depth

variable {mode : GraphMode}

theorem depth_congr {e e' : Expr String} (same : e.normal = e'.normal) :
    e.depth mode = e'.depth mode := by
  unfold Expr.depth
  rw [← depth_normal (e.valueTree mode), ← depth_normal (e'.valueTree mode), valueTree_normal,
    valueTree_normal, same]

/-! ### Layers -/

/-- The result of one node feeds another. -/
def Graph.Feeds (g : Graph) (source target : NodeId) : Prop :=
  ∃ edge ∈ g.edges, edge.kind = .data ∧ edge.source = source ∧ edge.target = target

namespace Build

variable {b c : Build} {id : NodeId} {depth : Nat}

/-- Data edges lead from listed operands to deeper ones, or to nodes that are not listed. -/
structure Layered (mode : GraphMode) (b : Build) : Prop where
  listed : ∀ e id, (e, id) ∈ b.values → id < b.graph.nextId
  inside : ∀ edge ∈ b.graph.edges, edge.kind = .data → edge.target < b.graph.nextId
  rises : ∀ edge ∈ b.graph.edges, edge.kind = .data → ∃ e, (e, edge.source) ∈ b.values ∧
    ∀ e', (e', edge.target) ∈ b.values → e.depth mode < e'.depth mode

/-- The node exists, and no operand is listed under it that is not as deep as said. -/
def Above (mode : GraphMode) (b : Build) (id : NodeId) (depth : Nat) : Prop :=
  id < b.graph.nextId ∧ ∀ e, (e, id) ∈ b.values → depth ≤ e.depth mode

/-- What is new does not concern a node that exists. -/
theorem Above.later {expected : NodeId → Prop} (above : b.Above mode id depth)
    (grows : b.Grows expected c) : c.Above mode id depth := by
  obtain ⟨present, deep⟩ := above
  refine ⟨Nat.lt_of_lt_of_le present grows.grown, ?_⟩
  intro e entry
  rcases grows.fresh _ entry with old | new
  · exact deep e old
  · exact absurd present (Nat.not_lt.mpr new)

namespace Layered

/-- Along data edges depth rises, so that none leads back. -/
theorem acyclic (layered : b.Layered mode) (id : NodeId) :
    ¬ Relation.TransGen b.graph.Feeds id id := by
  have rises {source target : NodeId} (way : Relation.TransGen b.graph.Feeds source target) :
      ∃ e, (e, source) ∈ b.values ∧
        ∀ e', (e', target) ∈ b.values → e.depth mode < e'.depth mode := by
    induction way with
    | single step =>
      obtain ⟨edge, member, data, rfl, rfl⟩ := step
      exact layered.rises edge member data
    | tail way step ih =>
      obtain ⟨edge, member, data, rfl, rfl⟩ := step
      obtain ⟨e, entry, below⟩ := ih
      obtain ⟨middle, between, above⟩ := layered.rises edge member data
      refine ⟨e, entry, ?_⟩
      intro e' last
      exact Nat.lt_trans (below middle between) (above e' last)
  intro cycle
  obtain ⟨e, entry, below⟩ := rises cycle
  exact Nat.lt_irrefl _ (below e entry)

theorem empty (mode : GraphMode) : Layered mode {} := by
  constructor <;> simp

/-- Layers concern the table and the edges; further nodes do not matter. -/
theorem widen (layered : b.Layered mode) (values : c.values = b.values)
    (edges : c.graph.edges = b.graph.edges) (grown : b.graph.nextId ≤ c.graph.nextId) :
    c.Layered mode where
  listed e id entry := Nat.lt_of_lt_of_le (layered.listed e id (values ▸ entry)) grown
  inside edge member data :=
    Nat.lt_of_lt_of_le (layered.inside edge (edges ▸ member) data) grown
  rises := by
    rw [values, edges]
    exact layered.rises

theorem addPin (layered : b.Layered mode) (id : NodeId) (name : String) (direction : Direction)
    (kind : FlowKind) : (b.onGraph (·.addPin id name direction kind)).Layered mode :=
  layered.widen rfl (by simp) (by simp)

/-- No edge enters a new node yet. -/
theorem openValue (layered : b.Layered mode) (operand : Expr String) :
    (b.openValue operand).Layered mode := by
  have grown : (b.openValue operand).graph.nextId = b.graph.nextId + 1 := by simp [Build.openValue]
  have edges : (b.openValue operand).graph.edges = b.graph.edges := by simp [Build.openValue]
  have entries {e : Expr String} {id : NodeId} (entry : (e, id) ∈ (b.openValue operand).values) :
      (e, id) ∈ b.values ∨ e = operand ∧ id = b.graph.nextId := by
    simpa [Build.openValue] using entry
  refine ⟨?_, ?_, ?_⟩
  · intro e id entry
    rw [grown]
    rcases entries entry with old | ⟨_, rfl⟩
    · exact Nat.lt_succ_of_lt (layered.listed e id old)
    · exact Nat.lt_succ_self _
  · intro edge member data
    rw [edges] at member
    rw [grown]
    exact Nat.lt_succ_of_lt (layered.inside edge member data)
  · intro edge member data
    rw [edges] at member
    obtain ⟨e, entry, below⟩ := layered.rises edge member data
    refine ⟨e, List.mem_append_left _ entry, ?_⟩
    intro e' entry'
    rcases entries entry' with old | ⟨_, same⟩
    · exact below e' old
    · exact absurd (same ▸ layered.inside edge member data) (Nat.lt_irrefl _)

/-- The operand of a new node is all that is listed under it. -/
private theorem openValue_above (layered : b.Layered mode) (operand : Expr String) :
    (b.openValue operand).Above mode b.graph.nextId (operand.depth mode) := by
  constructor
  · simp [Build.openValue]
  · intro e entry
    rcases List.mem_append.mp entry with old | new
    · exact absurd (layered.listed e _ old) (Nat.lt_irrefl _)
    · cases List.mem_singleton.mp new
      exact Nat.le_refl _

/-- A listed operand may feed a deeper one. -/
theorem connectData (layered : b.Layered mode) {e : Expr String} {value : NodeId}
    (entry : (e, value) ∈ b.values) (above : b.Above mode id (e.depth mode + 1)) (pin : String) :
    (b.onGraph (·.connectData value id pin)).Layered mode := by
  have edges {edge : Edge} (member : edge ∈ (b.graph.connectData value id pin).edges) :
      edge ∈ b.graph.edges ∨ edge = ⟨.data, value, resultPin, id, pin⟩ := by
    simpa [Graph.connectData, Graph.addEdge] using member
  refine ⟨layered.listed, ?_, ?_⟩
  · intro edge member data
    rcases edges member with old | rfl
    · exact layered.inside edge old data
    · exact above.1
  · intro edge member data
    rcases edges member with old | rfl
    · exact layered.rises edge old data
    · exact ⟨e, entry, above.2⟩

theorem closeValue (layered : b.Layered mode) (id : NodeId) (title : Option String)
    (token : String) : (b.closeValue id title token).Layered mode := by
  cases title with
  | some title => exact layered.widen rfl rfl (by simp [Build.closeValue, Graph.relabel])
  | none => exact layered.widen rfl rfl (by simp [Build.closeValue, Graph.markUnmodeled])

end Layered

/-! ### Placing -/

/-- Placing the tree keeps layers, whether or not it comes to the end; and the node that it returns
is listed with an operand of the depth of the tree. -/
def KeepsLayers (mode : GraphMode) (tree : ValueTree) : Prop :=
  ∀ b : Build, b.Layered mode → (tree.place b).2.Layered mode ∧
    ∀ id, (tree.place b).1 = .ok id →
      ∃ e, (e, id) ∈ (tree.place b).2.values ∧ e.depth mode = tree.depth

private theorem placeParts_layered {id : NodeId} {depth : Nat}
    {parts : List (ValuePart ValueTree)}
    (feeds : ∀ pin tree, ValuePart.operand pin tree ∈ parts →
      KeepsLayers mode tree ∧ tree.depth < depth)
    {b : Build} (layered : b.Layered mode) (above : b.Above mode id depth) :
    (placeParts id parts b).2.Layered mode := by
  induction parts generalizing b with
  | nil => exact layered
  | cons part rest ih =>
    have restFeeds := fun pin tree member => feeds pin tree (List.mem_cons_of_mem _ member)
    cases part with
    | operand pin tree =>
      obtain ⟨keeps, small⟩ := feeds pin tree (by simp)
      obtain ⟨kept, returned⟩ := keeps _ (layered.addPin id pin .input .data)
      have grows := (place_keeps tree (b.onGraph (·.addPin id pin .input .data)) (.refl _)).toGrows
      have opened : (b.onGraph (·.addPin id pin .input .data)).Above mode id depth :=
        ⟨by simpa using above.1, above.2⟩
      have still := opened.later grows
      rw [placeParts]
      rcases placed : tree.place (b.onGraph (·.addPin id pin .input .data)) with ⟨result, after⟩
      rw [placed] at kept returned still
      cases result with
      | error gap => exact kept
      | ok value =>
        obtain ⟨e, entry, same⟩ := returned value rfl
        have deeper : after.Above mode id (e.depth mode + 1) := by
          refine ⟨still.1, ?_⟩
          intro e' entry'
          have deep := still.2 e' entry'
          omega
        exact ih restFeeds (kept.connectData entry deeper pin) still
    | note line =>
      have noted : (b.onGraph (·.annotate id line)).Layered mode :=
        layered.widen rfl rfl (by simp [Graph.annotate])
      exact ih restFeeds noted ⟨by simpa [Graph.annotate] using above.1, above.2⟩
    | variableRead name =>
      have registered : (b.onGraph (·.registerVariable name id)).Layered mode :=
        layered.widen rfl rfl (by simp)
      exact ih restFeeds registered above
    | gap opcode => exact layered

/-- The tree of an operand keeps layers, whatever the operand. -/
private theorem keepsLayers_valueTree (tree : ValueTree) {e : Expr String}
    (own : e.valueTree mode = tree) : KeepsLayers mode tree := by
  induction tree generalizing e with
  | gap opcode =>
    intro b layered
    refine ⟨layered, ?_⟩
    intro id placed
    cases placed
  | node operand title token parts ih =>
    intro b layered
    obtain ⟨rfl, fed⟩ := valueTree_fed own
    have depth : e.depth mode = (ValueTree.node e ⟨title, token, parts⟩).depth := by
      rw [Expr.depth, own]
    rw [ValueTree.place]
    rcases found : findValue e b.values with gap | _ | known
    · refine ⟨layered, ?_⟩
      intro id placed
      cases placed
    · have feeds : ∀ pin tree, ValuePart.operand pin tree ∈ parts →
          KeepsLayers mode tree ∧ tree.depth < e.depth mode := by
        intro pin tree member
        obtain ⟨part, tree'⟩ := fed pin tree member
        exact ⟨ih pin tree member tree', depth ▸ depth_lt_of_fed member⟩
      have kept := placeParts_layered feeds (layered.openValue e) (layered.openValue_above e)
      have more := placeParts_values b.graph.nextId parts (b.openValue e)
      have entry : (e, b.graph.nextId) ∈ (b.openValue e).values := by simp [Build.openValue]
      dsimp only
      rcases result : placeParts b.graph.nextId parts (b.openValue e) with ⟨outcome, after⟩
      rw [result] at kept more
      cases outcome with
      | error gap =>
        refine ⟨kept, ?_⟩
        intro id placed
        cases placed
      | ok done =>
        refine ⟨kept.closeValue _ title token, ?_⟩
        intro id placed
        cases placed
        refine ⟨e, ?_, depth⟩
        rw [closeValue_values]
        exact more.subset entry
    · obtain ⟨_, seen, _, split, _, equal⟩ := findValue_split found
      obtain ⟨_, _, normal⟩ := (agrees_true_iff _ _).mp equal
      refine ⟨layered, ?_⟩
      intro id placed
      cases placed
      refine ⟨seen, ?_, (depth_congr normal).trans depth⟩
      simp [split]

/-- A call keeps layers, and the node that it returns is listed with an operand as deep as its
own. -/
theorem value_layered (layered : b.Layered mode) (e : Expr String) :
    (b.value mode e).2.Layered mode ∧ ∀ id, (b.value mode e).1 = .ok id →
      ∃ e', (e', id) ∈ (b.value mode e).2.values ∧ e'.depth mode = e.depth mode :=
  keepsLayers_valueTree (e.valueTree mode) rfl b layered

end Build

end ScriptFlow
