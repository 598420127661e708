import ScriptFlow.Proofs.Collection.OrderedMap
import ScriptFlow.Proofs.Value.Frame
import ScriptFlow.Proofs.Value.Shape

/-! The index of variables. A value node is entered under the variable that its operand reads, when it
gets the parts of its shape, and never again: an operand that shares the node adds nothing. So the
index follows the table of values: under a variable stand the nodes of the entries that read it, each
of them once, but for the entries whose parts are still to come. -/
namespace ScriptFlow

variable {mode : GraphMode} {e : Expr String} {name : String}

/-! ### What an operand reads -/

/-- The variable that an expression reads by itself. Sparse class data has no entry in the index. -/
def Expr.variableName? : Expr String → Option String
  | .atom (.readVariable .sparseData _) => none
  | .atom (.readVariable _ name) => some name
  | _ => none

private theorem Expr.variableName?_eq_some_iff : e.variableName? = some name ↔
    ∃ scope, scope ≠ .sparseData ∧ e = .atom (.readVariable scope name) := by
  constructor
  · intro reads
    unfold Expr.variableName? at reads
    split at reads
    · cases reads
    · rename_i scope _ visible
      cases reads
      exact ⟨scope, visible, rfl⟩
    · cases reads
  · rintro ⟨scope, visible, rfl⟩
    cases scope with
    | sparseData => exact absurd rfl visible
    | _ => rfl

/-- The variable under which the node of an operand is entered: the one that is read by the operand,
or by its member if that is merged into it. -/
def Expr.reads? (mode : GraphMode) (e : Expr String) : Option String := (e.shown mode).variableName?

/-- The variables under which a node is entered, in order. -/
@[simp] def variablesOf {τ : Type} : List (ValuePart τ) → List String
  | [] => []
  | .variableRead name :: rest => name :: variablesOf rest
  | .operand .. :: rest => variablesOf rest
  | .note _ :: rest => variablesOf rest
  | .gap _ :: rest => variablesOf rest

@[simp] theorem variablesOf_append {τ : Type} (first second : List (ValuePart τ)) :
    variablesOf (first ++ second) = variablesOf first ++ variablesOf second := by
  induction first with
  | nil => rfl
  | cons part rest ih => cases part <;> simp [ih]

/-- Inputs enter nothing. -/
theorem variablesOf_inputs {τ : Type} {parts : List (ValuePart τ)}
    (inputs : ∀ part ∈ parts, ∃ pin value, part = .operand pin value) : variablesOf parts = [] := by
  induction parts with
  | nil => rfl
  | cons part rest ih =>
    obtain ⟨pin, value, rfl⟩ := inputs part (by simp)
    exact ih fun other member => inputs other (List.mem_cons_of_mem _ member)

@[simp] theorem variablesOf_numbered {τ : Type} (words : Nat → String) (values : List τ) :
    variablesOf (numbered words values) = [] := by
  refine variablesOf_inputs fun part member => ?_
  obtain ⟨⟨value, i⟩, _, rfl⟩ := List.mem_map.mp member
  exact ⟨_, _, rfl⟩

@[simp] theorem variablesOf_components (components : List (String × Single)) :
    variablesOf (componentParts components) = [] := by
  refine variablesOf_inputs fun part member => ?_
  obtain ⟨⟨pin, x⟩, _, rfl⟩ := List.mem_map.mp member
  exact ⟨_, _, rfl⟩

@[simp] theorem variablesOf_cases (cases : List (ValueTree × ValueTree)) :
    variablesOf (caseParts cases) = [] := by
  refine variablesOf_inputs fun part member => ?_
  obtain ⟨⟨c, i⟩, _, inCase⟩ := List.mem_flatMap.mp member
  simp only [List.mem_cons, List.not_mem_nil, or_false] at inCase
  rcases inCase with rfl | rfl <;> exact ⟨_, _, rfl⟩

private theorem Atom.variablesOf_valueShape (op : Atom String) :
    variablesOf op.valueShape.parts = (Expr.atom op).variableName?.toList := by
  cases op with
  | readVariable scope target => cases scope <;> rfl
  | marker m => cases m <;> rfl
  | vector v => exact variablesOf_components _
  | rotation r => exact variablesOf_components _
  | transform t => exact variablesOf_components _
  | _ => rfl

private theorem Unary.variablesOf_valueShape (op : Unary String) (a : Expr String)
    (value : ValueTree) : variablesOf (op.valueShape a value).parts = [] := by
  cases op with
  | wrap w => cases w <;> rfl
  | classCast kind target => cases kind <;> rfl
  | _ => rfl

private theorem Variadic.variablesOf_valueShape (op : Variadic String) (values : List ValueTree) :
    variablesOf (op.valueShape values).parts = [] := by
  cases op with
  | virtualCall kind target =>
    cases kind <;> simp [Variadic.valueShape, ValueShape.titled, ValueShape.generic]
  | _ => simp [Variadic.valueShape, ValueShape.titled, ValueShape.generic]

/-- The shape of an operation enters the variable that it reads, and no other. -/
theorem variablesOf_valueView (mode : GraphMode) (e : Expr String) :
    variablesOf (e.valueView mode).shape.parts = e.variableName?.toList := by
  cases e with
  | atom op =>
    cases op with
    | unknown opcode => rfl
    | _ => exact Atom.variablesOf_valueShape _
  | unary op a => exact Unary.variablesOf_valueShape op a _
  | binary op a b =>
    have bare : variablesOf (op.valueShape a b (a.valueView mode).tree
        (b.valueView mode).tree).parts = [] := by
      cases op <;> rfl
    cases mode with
    | plain => exact bare
    | pseudoBlueprint => cases op <;> exact bare
  | localizedText source key space => rfl
  | variadic op operands => exact Variadic.variablesOf_valueShape op _
  | led op leader operands =>
    simp [Expr.valueView, ValueView.plain, ValueShape.generic, Expr.variableName?]
  | switch endOffset index cases default =>
    simp [Expr.valueView, ValueView.plain, switchShape, ValueShape.titled, Expr.variableName?]

/-- But for its inputs, a node shows what the operation that is shown asks for. -/
private theorem parts_of_shown {operand : Expr String} {shape : ValueShape ValueTree}
    (own : e.valueTree mode = .node operand shape) :
    variablesOf shape.parts = variablesOf ((e.shown mode).valueView mode).shape.parts ∧
      notesOf shape.parts = notesOf ((e.shown mode).valueView mode).shape.parts := by
  cases e with
  | atom op =>
    cases op with
    | unknown opcode => cases own
    | _ => cases own; cases mode <;> exact ⟨rfl, rfl⟩
  | binary op a b =>
    cases mode with
    | plain => cases own; exact ⟨rfl, rfl⟩
    | pseudoBlueprint => cases op <;> cases own <;> exact ⟨rfl, rfl⟩
  | _ => cases own; cases mode <;> exact ⟨rfl, rfl⟩

/-- The node of an operand is entered under the variable that the operand reads, and no other. -/
theorem variablesOf_valueTree {operand : Expr String} {shape : ValueShape ValueTree}
    (own : e.valueTree mode = .node operand shape) :
    variablesOf shape.parts = (e.reads? mode).toList :=
  (parts_of_shown own).1.trans (variablesOf_valueView mode _)

/-- The node of an operand that reads a variable shows the short name of the variable. -/
theorem note_of_reads {operand : Expr String} {shape : ValueShape ValueTree}
    (own : e.valueTree mode = .node operand shape) (reads : e.reads? mode = some name) :
    shortName name ∈ notesOf shape.parts := by
  obtain ⟨scope, visible, shown⟩ := Expr.variableName?_eq_some_iff.mp reads
  rw [(parts_of_shown own).2, shown]
  cases scope with
  | sparseData => exact absurd rfl visible
  | _ => exact List.mem_singleton_self _

/-! ### The index -/

namespace Graph

variable {g : Graph}

/-- The nodes that are entered under a variable. -/
def readers (g : Graph) (name : String) : List NodeId := (g.variableReaders.get? name).getD []

theorem readers_congr {g' : Graph} (index : g'.variableReaders = g.variableReaders)
    (name : String) : g'.readers name = g.readers name := by
  rw [readers, readers, index]

@[simp] theorem variableReaders_addPin (g : Graph) (id : NodeId) (name : String)
    (direction : Direction) (kind : FlowKind) :
    (g.addPin id name direction kind).variableReaders = g.variableReaders := by
  rw [addPin_eq_modifyNode]
  rfl

/-- A node goes to the end of those entered under a variable, unless it is one of them. -/
theorem readers_registerVariable (g : Graph) (name other : String) (node : NodeId) :
    (g.registerVariable name node).readers other =
      if other = name ∧ node ∉ g.readers name then g.readers name ++ [node]
      else g.readers other := by
  simp only [readers, registerVariable, OrderedMap.get?_alter]
  by_cases same : other = name
  · subst same
    by_cases present : node ∈ (g.variableReaders.get? other).getD [] <;> simp [addReader, present]
  · simp [same]

theorem mem_readers_registerVariable (name other : String) (node id : NodeId) :
    id ∈ (g.registerVariable name node).readers other ↔
      id ∈ g.readers other ∨ other = name ∧ id = node := by
  rw [readers_registerVariable]
  by_cases same : other = name
  · subst same
    by_cases present : node ∈ g.readers other
    · rw [if_neg (by simp [present])]
      refine ⟨.inl, ?_⟩
      rintro (old | ⟨_, rfl⟩)
      · exact old
      · exact present
    · simp [present]
  · simp [same]

/-- No variable is listed twice or without a node, and no node twice under one variable. -/
structure TidyIndex (g : Graph) : Prop where
  distinct : g.variableReaders.keys.Nodup
  inhabited : ∀ name nodes, g.variableReaders.get? name = some nodes → nodes ≠ []
  single : ∀ name, (g.readers name).Nodup

theorem TidyIndex.registerVariable (tidy : g.TidyIndex) (name : String) (node : NodeId) :
    (g.registerVariable name node).TidyIndex where
  distinct := OrderedMap.nodup_keys_alter tidy.distinct name (addReader node)
  inhabited other nodes found := by
    simp only [Graph.registerVariable, OrderedMap.get?_alter] at found
    by_cases same : other = name
    · rw [if_pos same] at found
      cases found
      simp only [addReader]
      split
      · exact List.ne_nil_of_mem ‹_›
      · simp
    · rw [if_neg same] at found
      exact tidy.inhabited other nodes found
  single other := by
    rw [readers_registerVariable]
    split
    · rename_i isNew
      rw [← List.concat_eq_append]
      exact (tidy.single name).concat isNew.2
    · exact tidy.single other

end Graph

namespace Build

variable {pending : List (Expr String × NodeId)} {b c after : Build} {id : NodeId}
  {operand : Expr String} {parts : List (ValuePart ValueTree)}

@[simp] theorem variableReaders_openValue (b : Build) (operand : Expr String) :
    (b.openValue operand).graph.variableReaders = b.graph.variableReaders := by
  simp only [openValue, Graph.variableReaders_addPin]
  rfl

@[simp] theorem variableReaders_closeValue (b : Build) (id : NodeId) (title : Option String)
    (token : String) :
    (b.closeValue id title token).graph.variableReaders = b.graph.variableReaders := by
  cases title <;> rfl

/-- The index follows the table of values, up to the entries whose parts are still to come. -/
structure Indexed (mode : GraphMode) (pending : List (Expr String × NodeId)) (b : Build) :
    Prop where
  tidy : b.graph.TidyIndex
  /-- What is entered reads the variable, -/
  sound : ∀ name id, id ∈ b.graph.readers name → ∃ e, (e, id) ∈ b.values ∧
    e.reads? mode = some name
  /-- and whatever reads it is entered. -/
  complete : ∀ e id name, (e, id) ∈ b.values → e.reads? mode = some name →
    id ∈ b.graph.readers name ∨ (e, id) ∈ pending

namespace Indexed

theorem empty (mode : GraphMode) : Indexed mode [] {} where
  tidy := ⟨List.nodup_nil, by simp, by simp [Graph.readers]⟩
  sound := by simp [Graph.readers]
  complete := by simp

/-- The index concerns nothing but itself and the table. -/
theorem congr (indexed : b.Indexed mode pending) (values : c.values = b.values)
    (index : c.graph.variableReaders = b.graph.variableReaders) : c.Indexed mode pending := by
  obtain ⟨⟨distinct, inhabited, single⟩, sound, complete⟩ := indexed
  simp only [Graph.readers, ← values, ← index] at *
  exact ⟨⟨distinct, inhabited, single⟩, sound, complete⟩

theorem openValue (indexed : b.Indexed mode pending) (operand : Expr String) :
    (b.openValue operand).Indexed mode ((operand, b.graph.nextId) :: pending) := by
  have index := variableReaders_openValue b operand
  have same := Graph.readers_congr index
  obtain ⟨tidy, sound, complete⟩ := indexed
  refine ⟨⟨index ▸ tidy.distinct, index ▸ tidy.inhabited, fun name => same name ▸ tidy.single name⟩,
    fun name id entered => ?_, fun e id name entry reads => ?_⟩
  · rw [same] at entered
    obtain ⟨e, entry, reads⟩ := sound name id entered
    exact ⟨e, List.mem_append_left _ entry, reads⟩
  · rw [same]
    rcases List.mem_append.mp entry with old | new
    · exact (complete e id name old reads).imp_right (List.mem_cons_of_mem _)
    · cases List.mem_singleton.mp new
      exact .inr (List.mem_cons_self ..)

/-- An entry that reads a variable is entered under it. -/
theorem registerVariable (indexed : b.Indexed mode pending) (entry : (e, id) ∈ b.values)
    (reads : e.reads? mode = some name) :
    (b.onGraph (·.registerVariable name id)).Indexed mode pending where
  tidy := indexed.tidy.registerVariable name id
  sound other id' entered := by
    rcases (Graph.mem_readers_registerVariable name other id id').mp entered with old | ⟨rfl, rfl⟩
    · exact indexed.sound other id' old
    · exact ⟨e, entry, reads⟩
  complete e' id' other entry' reads' :=
    (indexed.complete e' id' other entry' reads').imp_left fun old =>
      (Graph.mem_readers_registerVariable name other id id').mpr (.inl old)

/-- A pending entry is none any more once it is entered under what it reads. -/
theorem settle (indexed : b.Indexed mode ((e, id) :: pending))
    (entered : ∀ name, e.reads? mode = some name → id ∈ b.graph.readers name) :
    b.Indexed mode pending where
  tidy := indexed.tidy
  sound := indexed.sound
  complete e' id' name entry reads := by
    rcases indexed.complete e' id' name entry reads with done | waits
    · exact .inl done
    · rcases List.mem_cons.mp waits with own | waits
      · cases own
        exact .inl (entered name reads)
      · exact .inr waits

end Indexed

/-- Placing the tree to the end keeps the index in step with the table, and takes nothing out of
it. -/
def KeepsIndex (mode : GraphMode) (tree : ValueTree) : Prop :=
  ∀ pending (b : Build) id after, b.Indexed mode pending → tree.place b = (.ok id, after) →
    after.Indexed mode pending ∧ ∀ name, b.graph.readers name ⊆ after.graph.readers name

private theorem placeParts_indexed
    (each : ∀ pin tree, ValuePart.operand pin tree ∈ parts → KeepsIndex mode tree)
    (own : ∀ name ∈ variablesOf parts, e.reads? mode = some name)
    (indexed : b.Indexed mode pending) (entry : (e, id) ∈ b.values)
    (run : placeParts id parts b = (.ok (), after)) :
    after.Indexed mode pending ∧ (∀ name, b.graph.readers name ⊆ after.graph.readers name) ∧
      ∀ name ∈ variablesOf parts, id ∈ after.graph.readers name := by
  induction parts generalizing b with
  | nil =>
    cases run
    exact ⟨indexed, fun name => List.Subset.refl _, by simp⟩
  | cons part rest ih =>
    have restEach := fun pin tree member => each pin tree (List.mem_cons_of_mem _ member)
    cases part with
    | operand pin tree =>
      have opened : (b.onGraph (·.addPin id pin .input .data)).Indexed mode pending :=
        indexed.congr rfl (by simp)
      rw [placeParts] at run
      rcases placed : tree.place (b.onGraph (·.addPin id pin .input .data)) with ⟨result, next⟩
      rw [placed] at run
      cases result with
      | error gap => cases run
      | ok value =>
        obtain ⟨kept, more⟩ := each pin tree (by simp) pending _ value next opened placed
        have entries := (place_keeps tree (b.onGraph (·.addPin id pin .input .data)) (.refl _)).values
        rw [placed] at entries
        have connected : (next.onGraph (·.connectData value id pin)).Indexed mode pending :=
          kept.congr rfl rfl
        obtain ⟨done, grown, entered⟩ :=
          ih restEach own connected (entries.subset entry) run
        refine ⟨done, fun name => ?_, entered⟩
        rw [← Graph.readers_congr (b.graph.variableReaders_addPin id pin .input .data)]
        exact List.Subset.trans (more name) (grown name)
    | note line =>
      have noted : (b.onGraph (·.annotate id line)).Indexed mode pending := indexed.congr rfl rfl
      have kept := ih restEach own noted entry run
      exact kept
    | variableRead name =>
      have registered := indexed.registerVariable entry (own name (by simp))
      obtain ⟨done, grown, entered⟩ :=
        ih restEach (fun other member => own other (List.mem_cons_of_mem _ member)) registered
          entry run
      have here (other : String) (id' : NodeId)
          (now : id' ∈ b.graph.readers other ∨ other = name ∧ id' = id) :
          id' ∈ after.graph.readers other :=
        grown other ((Graph.mem_readers_registerVariable name other id id').mpr now)
      refine ⟨done, fun other id' old => here other id' (.inl old), fun other member => ?_⟩
      rcases List.mem_cons.mp member with rfl | member
      · exact here other id (.inr ⟨rfl, rfl⟩)
      · exact entered other member
    | gap opcode => cases run

/-- The tree of an operand keeps the index in step with the table, whatever the operand. -/
theorem keepsIndex_valueTree (tree : ValueTree) {e : Expr String}
    (own : e.valueTree mode = tree) : KeepsIndex mode tree := by
  induction tree generalizing e with
  | gap opcode =>
    intro pending b id after _ run
    cases run
  | node operand title token parts ih =>
    intro pending b id after indexed run
    obtain ⟨rfl, fed⟩ := valueTree_fed own
    have reads := variablesOf_valueTree own
    rw [ValueTree.place] at run
    rcases found : findValue e b.values with gap | _ | seen
    · simp [found] at run
    · simp only [found] at run
      rcases result : placeParts b.graph.nextId parts (b.openValue e) with ⟨gap | _, given⟩
      · simp [result] at run
      · rw [result] at run
        cases run
        have each : ∀ pin tree, ValuePart.operand pin tree ∈ parts → KeepsIndex mode tree := by
          intro pin tree member
          obtain ⟨part, same⟩ := fed pin tree member
          exact ih pin tree member same
        obtain ⟨kept, grown, entered⟩ := placeParts_indexed each (by simp [reads])
          (indexed.openValue e) (List.mem_append_right _ (List.mem_singleton_self _)) result
        have settled := kept.settle (by simpa [reads] using entered)
        refine ⟨settled.congr (closeValue_values ..) (variableReaders_closeValue ..),
          fun name => ?_⟩
        rw [← Graph.readers_congr (variableReaders_openValue b e),
          Graph.readers_congr (variableReaders_closeValue given ..)]
        exact grown name
    · simp only [found] at run
      cases run
      exact ⟨indexed, fun name => List.Subset.refl _⟩

/-- A call for the value of an operand keeps the index in step with the table. -/
theorem value_indexed (indexed : b.Indexed mode pending)
    (called : b.value mode operand = (.ok id, after)) : after.Indexed mode pending :=
  (keepsIndex_valueTree (operand.valueTree mode) rfl pending b id after indexed called).1

end Build

end ScriptFlow
