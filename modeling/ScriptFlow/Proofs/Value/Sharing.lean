import ScriptFlow.Proofs.Value.Placing

/-! Value nodes stand for classes of structurally equal operands. After any run of calls nothing is
open, so the table tells the node of every operand that the run reached: its own operands, what
their shapes are fed with, and the numbers that shapes make up. Two of them have one node exactly
when they are structurally equal, and there are no other value nodes. -/
namespace ScriptFlow

variable {mode : GraphMode} {isOpen : NodeId → Prop} {g : Graph}
  {values : List (Expr String × NodeId)} {id id' : NodeId} {label : String} {unmodeled : Bool}
  {e e' : Expr String}

/-! ### What the table says of an operand does not depend on how it is written -/

theorem inputNames_normalParts (parts : List (ValuePart ValueTree)) :
    inputNames (normalParts parts) = inputNames parts := by
  rw [inputNames, inputsOf_normalParts, List.map_map]
  rfl

/-- Parts with one normal form are fed at the same inputs, by trees with one normal form. -/
private theorem operand_mem_of_normalParts {parts parts' : List (ValuePart ValueTree)}
    (same : normalParts parts = normalParts parts') {pin : String} {tree : ValueTree}
    (member : ValuePart.operand pin tree ∈ parts) :
    ∃ tree', ValuePart.operand pin tree' ∈ parts' ∧ tree'.normal = tree.normal := by
  have listed : (pin, tree.normal) ∈ inputsOf (normalParts parts) := by
    rw [inputsOf_normalParts]
    exact List.mem_map.mpr ⟨(pin, tree), mem_inputsOf.mpr member, rfl⟩
  rw [same, inputsOf_normalParts] at listed
  obtain ⟨⟨pin', tree'⟩, member', sameInput⟩ := List.mem_map.mp listed
  obtain ⟨rfl, normal⟩ := Prod.mk.inj sameInput
  exact ⟨tree', mem_inputsOf.mp member', normal⟩

theorem ValueTree.Stands.of_normal {tree tree' : ValueTree} (stands : tree.Stands values id)
    (same : tree.normal = tree'.normal) : tree'.Stands values id := by
  cases tree with
  | gap opcode => exact stands.elim
  | node operand shape =>
    cases tree' with
    | gap opcode => simp [ValueTree.normal] at same
    | node operand' shape' =>
      obtain ⟨seen, entry, normal⟩ := stands
      simp only [node_normal, ValueTree.node.injEq] at same
      exact ⟨seen, entry, normal.trans same.1⟩

/-- A node that shows some parts shows all parts with the same normal form. -/
theorem Graph.Dressed.of_normal {parts parts' : List (ValuePart ValueTree)}
    (dressed : g.Dressed values id label unmodeled parts)
    (same : normalParts parts = normalParts parts') :
    g.Dressed values id label unmodeled parts' := by
  have names : inputNames parts = inputNames parts' := by
    rw [← inputNames_normalParts, same, inputNames_normalParts]
  have notes : notesOf parts = notesOf parts' := by
    rw [← notesOf_normalParts, same, notesOf_normalParts]
  refine ⟨?_, fun pin tree member => ?_, fun pin absent => dressed.bare pin (names ▸ absent)⟩
  · rw [dressed.node, valuePins, valuePins, names, notes]
  · obtain ⟨seen, seenMember, normal⟩ := operand_mem_of_normalParts same.symm member
    obtain ⟨source, only, stands⟩ := dressed.fed pin seen seenMember
    exact ⟨source, only, stands.of_normal normal⟩

/-- The node of an operand shows what the operand's own shape says, whichever operand with the same
normal form came first. -/
theorem Shares.wired_of_listed (shared : Shares mode isOpen g values) (known : e.known = true)
    (listed : Listed values e id) (closed : ¬ isOpen id) : g.Wired mode values e id := by
  obtain ⟨seen, entry, same⟩ := listed
  obtain ⟨seenShape, seenTree, dressed⟩ := shared.wired seen id entry closed
  obtain ⟨shape, tree, _⟩ := valueTree_of_known mode known
  have trees : (seen.valueTree mode).normal = (e.valueTree mode).normal := by
    rw [valueTree_normal, valueTree_normal, same]
  rw [seenTree, tree, node_normal, node_normal, ValueTree.node.injEq] at trees
  have titles : seenShape.normal.title = shape.normal.title := by rw [trees.2]
  change seenShape.title = shape.title at titles
  have tokens : seen.tokenName = e.tokenName := by
    rw [← normal_tokenName, same, normal_tokenName]
  refine ⟨shape, tree, ?_⟩
  rw [← titles, ← tokens]
  exact dressed.of_normal (congrArg ValueShape.parts trees.2)

/-! ### Nodes and normal forms -/

theorem Shares.listed_node (shared : Shares mode isOpen g values) (listed : Listed values e id) :
    ∃ node, g.node? id = some node ∧ node.kind = .value := by
  obtain ⟨seen, entry, _⟩ := listed
  exact shared.listed seen id entry

/-- Listed operands have one node exactly when they have one normal form. -/
theorem Shares.node_eq_iff (shared : Shares mode isOpen g values) (listed : Listed values e id)
    (listed' : Listed values e' id') : id = id' ↔ e.normal = e'.normal := by
  obtain ⟨seen, entry, same⟩ := listed
  obtain ⟨seen', entry', same'⟩ := listed'
  constructor
  · rintro rfl
    cases List.inj_on_of_nodup_map shared.single entry entry' rfl
    exact same.symm.trans same'
  · intro normal
    cases List.inj_on_of_nodup_map shared.distinct entry entry'
      (same.trans (normal.trans same'.symm))
    rfl

/-- The node that a table has for an operand; zero when there is none. -/
def nodeIn (values : List (Expr String × NodeId)) (operand : Expr String) : NodeId :=
  match findValue operand values with
  | .ok (some id) => id
  | _ => 0

theorem Shares.findValue_of_listed (shared : Shares mode isOpen g values)
    (known : e.known = true) (listed : Listed values e id) :
    findValue e values = .ok (some id) := by
  rcases findValue_of_known known shared.known with ⟨found, holds, other⟩ | ⟨_, absent⟩
  · rw [holds, (shared.node_eq_iff other listed).mpr rfl]
  · obtain ⟨seen, entry, same⟩ := listed
    exact absurd same (absent seen id entry)

theorem Shares.nodeIn_of_listed (shared : Shares mode isOpen g values) (known : e.known = true)
    (listed : Listed values e id) : nodeIn values e = id := by
  simp [nodeIn, shared.findValue_of_listed known listed]

/-- Asking for a listed operand returns its node and changes nothing. -/
theorem Shares.value_of_listed {b : Build} (shared : Shares mode isOpen b.graph b.values)
    (known : e.known = true) (listed : Listed b.values e id) : b.value mode e = (.ok id, b) := by
  obtain ⟨⟨title, token, parts⟩, tree, _⟩ := valueTree_of_known mode known
  rw [Build.value, tree, ValueTree.place, shared.findValue_of_listed known listed]

/-- What an operand of the table is made of is in the table too. -/
theorem Shares.listed_of_reaches (shared : Shares mode (fun _ => False) g values)
    {tree : ValueTree} {part : Expr String} (reached : tree.Reaches part)
    (known : e.known = true) (same : e.valueTree mode = tree) (listed : Listed values e id) :
    part.known = true ∧ ∃ other, Listed values part other := by
  induction reached generalizing e id with
  | own =>
    obtain ⟨shape, own, _⟩ := valueTree_of_known mode known
    rw [own] at same
    cases same
    exact ⟨known, id, listed⟩
  | @input operand part shape pin tree fed reached ih =>
    obtain ⟨ownShape, own, sound⟩ := valueTree_of_known mode known
    obtain ⟨wiredShape, wiredOwn, dressed⟩ := shared.wired_of_listed known listed not_false
    rw [own] at same wiredOwn
    cases same
    cases wiredOwn
    obtain ⟨feeding, feedingKnown, rfl⟩ := sound.fed pin tree fed
    obtain ⟨source, _, stands⟩ := dressed.fed pin _ fed
    obtain ⟨feedingShape, feedingOwn, _⟩ := valueTree_of_known mode feedingKnown
    rw [feedingOwn] at stands
    exact ih feedingKnown rfl stands

/-! ### Runs of calls -/

/-- The value nodes of operands that are asked for one after the other: what each call returns, and
the build after all of them. A call that fails does not end the run. -/
def Build.valueAll (mode : GraphMode) :
    List (Expr String) → Build → List (Except ModelGap NodeId) × Build
  | [], b => ([], b)
  | e :: rest, b =>
    let call := b.value mode e
    let later := valueAll mode rest call.2
    (call.1 :: later.1, later.2)

/-- The operand is one that the trees of some operands are made of. -/
def ReachedFrom (mode : GraphMode) (operands : List (Expr String)) (e : Expr String) : Prop :=
  ∃ operand ∈ operands, (operand.valueTree mode).Reaches e

theorem Build.valueAll_keeps (mode : GraphMode) (operands : List (Expr String)) (b : Build) :
    b.Keeps (b.valueAll mode operands).2 := by
  induction operands generalizing b with
  | nil => exact .refl b
  | cons e rest ih => exact (b.value_keeps mode e).trans (ih _)

/-- A call for a known operand succeeds, lists the operand and leaves the table in agreement with
the graph; new entries are operands that it is made of. -/
theorem Shares.value {b : Build} (shared : Shares mode isOpen b.graph b.values)
    (known : e.known = true) :
    ∃ id after, b.value mode e = (.ok id, after) ∧ Shares mode isOpen after.graph after.values ∧
      Listed after.values e id ∧
      ∀ part other, (part, other) ∈ after.values →
        (part, other) ∈ b.values ∨ (e.valueTree mode).Reaches part := by
  obtain ⟨id, after, placed, sharedAfter, stands, grown⟩ := valueTree_places known isOpen b shared
  obtain ⟨shape, own, _⟩ := valueTree_of_known mode known
  rw [own] at stands
  exact ⟨id, after, placed, sharedAfter, stands, grown⟩

/-- Every call of a run of known operands succeeds, with the node that the table has for its operand
in the end. -/
theorem Shares.valueAll {operands : List (Expr String)} {b : Build}
    (shared : Shares mode isOpen b.graph b.values)
    (known : ∀ e ∈ operands, e.known = true) :
    ∃ after, b.valueAll mode operands = (operands.map fun e => .ok (nodeIn after.values e), after) ∧
      Shares mode isOpen after.graph after.values ∧
      (∀ e ∈ operands, ∃ id, Listed after.values e id) ∧
      ∀ e id, (e, id) ∈ after.values → (e, id) ∈ b.values ∨ ReachedFrom mode operands e := by
  induction operands generalizing b with
  | nil => exact ⟨b, rfl, shared, by simp, fun _ _ => .inl⟩
  | cons e rest ih =>
    have eKnown : e.known = true := known e (by simp)
    obtain ⟨id, next, call, sharedNext, listedNext, grownNext⟩ := shared.value eKnown
    obtain ⟨after, later, sharedAfter, listedAfter, grownAfter⟩ :=
      ih sharedNext fun e member => known e (List.mem_cons_of_mem _ member)
    have more : next.values ⊆ after.values := by
      have kept := next.valueAll_keeps mode rest
      rw [later] at kept
      exact kept.values.subset
    have listed : Listed after.values e id := listedNext.mono more
    refine ⟨after, ?_, sharedAfter, ?_, fun part other member => ?_⟩
    · simp only [Build.valueAll, call, later, List.map_cons,
        sharedAfter.nodeIn_of_listed eKnown listed]
    · intro operand member
      rcases List.mem_cons.mp member with rfl | member
      · exact ⟨id, listed⟩
      · exact listedAfter operand member
    · rcases grownAfter part other member with member | ⟨operand, inRest, reached⟩
      · exact (grownNext part other member).imp_right fun reached => ⟨e, by simp, reached⟩
      · exact .inr ⟨operand, List.mem_cons_of_mem _ inRest, reached⟩

/-- After a run of calls on an empty build the table lists every operand under the node that its
call returned, and lists nothing but what the run reached. -/
theorem valueAll_of_known (symbols : Symbols) (mode : GraphMode) {operands : List (Expr SymbolRef)}
    (known : ∀ e ∈ operands, e.known = true) :
    ∃ after, Build.valueAll mode (operands.map symbols.resolve) {} =
        (operands.map fun e => .ok (nodeIn after.values (symbols.resolve e)), after) ∧
      Shares mode (fun _ => False) after.graph after.values ∧
      (∀ e ∈ operands, Listed after.values (symbols.resolve e)
        (nodeIn after.values (symbols.resolve e))) ∧
      ∀ e id, (e, id) ∈ after.values → ReachedFrom mode (operands.map symbols.resolve) e := by
  have resolvedKnown : ∀ e ∈ operands.map symbols.resolve, e.known = true := by
    simpa using known
  obtain ⟨after, run, shared, listed, grown⟩ :=
    Shares.valueAll (b := {}) (.empty mode fun _ => False) resolvedKnown
  rw [List.map_map] at run
  refine ⟨after, run, shared, fun e member => ?_, fun e id entry => ?_⟩
  · have resolved := List.mem_map_of_mem (f := symbols.resolve) member
    obtain ⟨id, here⟩ := listed _ resolved
    rwa [shared.nodeIn_of_listed (resolvedKnown _ resolved) here]
  · exact (grown e id entry).resolve_left (by simp)

/-- Whatever is reached from listed operands is listed. -/
theorem Shares.listed_of_reachedFrom {symbols : Symbols} {operands : List (Expr SymbolRef)}
    (shared : Shares mode (fun _ => False) g values) (known : ∀ e ∈ operands, e.known = true)
    (listed : ∀ e ∈ operands, Listed values (symbols.resolve e) (nodeIn values (symbols.resolve e)))
    (reached : ReachedFrom mode (operands.map symbols.resolve) e) :
    e.known = true ∧ Listed values e (nodeIn values e) := by
  obtain ⟨_, inRun, reached⟩ := reached
  obtain ⟨operand, member, rfl⟩ := List.mem_map.mp inRun
  have resolved : (symbols.resolve operand).known = true := by
    simpa using known operand member
  obtain ⟨eKnown, id, here⟩ :=
    shared.listed_of_reaches reached resolved rfl (listed operand member)
  exact ⟨eKnown, by rwa [shared.nodeIn_of_listed eKnown here]⟩

theorem mem_valueNodes (g : Graph) (node : Node) :
    node ∈ g.valueNodes ↔ ∃ id, g.node? id = some node ∧ node.kind = .value := by
  simp [Graph.valueNodes, Graph.node?, Array.mem_iff_getElem?]

/-- The value nodes after any run of calls on known operands are the classes of structurally equal
operands among those that the run reached. Calls return one node exactly for structurally equal
operands, and a call for an operand equal to one already reached changes nothing at all. -/
theorem valueNodes_are_classes (symbols : Symbols) (mode : GraphMode)
    (operands : List (Expr SymbolRef)) (known : ∀ e ∈ operands, e.known = true) :
    ∃ (nodeOf : Expr String → NodeId) (after : Build),
      Build.valueAll mode (operands.map symbols.resolve) {} =
        (operands.map fun e => .ok (nodeOf (symbols.resolve e)), after) ∧
      (∀ a ∈ operands, ∀ b ∈ operands,
        nodeOf (symbols.resolve a) = nodeOf (symbols.resolve b) ↔
          structurallyEqual symbols a b = .ok true) ∧
      (∀ seen again, ReachedFrom mode (operands.map symbols.resolve) seen →
        seen.agrees (symbols.resolve again) = .ok true →
        after.value mode (symbols.resolve again) = (.ok (nodeOf seen), after)) ∧
      (∀ e, ReachedFrom mode (operands.map symbols.resolve) e →
        ∃ node ∈ after.graph.valueNodes, after.graph.node? (nodeOf e) = some node) ∧
      (∀ id, ∀ node ∈ after.graph.valueNodes, after.graph.node? id = some node →
        ∃ e, ReachedFrom mode (operands.map symbols.resolve) e ∧ nodeOf e = id) ∧
      ∀ e e', ReachedFrom mode (operands.map symbols.resolve) e →
        ReachedFrom mode (operands.map symbols.resolve) e' →
        (nodeOf e = nodeOf e' ↔ e.agrees e' = .ok true) := by
  obtain ⟨after, run, shared, listed, grown⟩ := valueAll_of_known symbols mode known
  have reached {e : Expr String} (reached : ReachedFrom mode (operands.map symbols.resolve) e) :=
    shared.listed_of_reachedFrom known listed reached
  have same {e e' : Expr String} (first : ReachedFrom mode (operands.map symbols.resolve) e)
      (second : ReachedFrom mode (operands.map symbols.resolve) e') :
      nodeIn after.values e = nodeIn after.values e' ↔ e.agrees e' = .ok true := by
    obtain ⟨eKnown, eListed⟩ := reached first
    obtain ⟨eKnown', eListed'⟩ := reached second
    rw [shared.node_eq_iff eListed eListed', agrees_true_iff]
    simp [eKnown, eKnown']
  have own {e : Expr SymbolRef} (member : e ∈ operands) :
      ReachedFrom mode (operands.map symbols.resolve) (symbols.resolve e) := by
    obtain ⟨shape, tree, _⟩ := valueTree_of_known mode
      (show (symbols.resolve e).known = true by simpa using known e member)
    exact ⟨symbols.resolve e, List.mem_map_of_mem member, by rw [tree]; exact .own⟩
  refine ⟨nodeIn after.values, after, run, ?_, ?_, ?_, ?_, fun e e' => same⟩
  · intro a aMember b bMember
    exact same (own aMember) (own bMember)
  · intro seen again seenReached equal
    obtain ⟨_, againKnown, normal⟩ := (agrees_true_iff _ _).mp equal
    obtain ⟨_, entry, entryMember, entryNormal⟩ := reached seenReached
    exact shared.value_of_listed againKnown ⟨entry, entryMember, entryNormal.trans normal⟩
  · intro e eReached
    obtain ⟨node, found, kind⟩ := shared.listed_node (reached eReached).2
    exact ⟨node, (mem_valueNodes _ _).mpr ⟨_, found, kind⟩, found⟩
  · intro id node member found
    obtain ⟨_, _, kind⟩ := (mem_valueNodes _ _).mp member
    obtain ⟨e, entry⟩ := shared.complete id node found kind
    have eReached := grown e id entry
    exact ⟨e, eReached, shared.nodeIn_of_listed (reached eReached).1 ⟨e, entry, rfl⟩⟩

/-- One variable read through two indices, and a vector with two equal components. -/
theorem valueNodes_are_classes_reads :
    let symbols : Symbols := ⟨fun _ => "Actor.Health", fun _ => "Actor"⟩
    let read (index : SymbolRef) : Expr SymbolRef := .atom (.readVariable .instanceMember index)
    let vector : Expr SymbolRef := .atom (.vector ⟨.ofInt 1, .ofInt 2, .ofInt 1⟩)
    (∀ e ∈ [vector, read 7, read (-2)], e.known = true) ∧
      ∃ (nodeOf : Expr String → NodeId) (after : Build),
        Build.valueAll .plain ([vector, read 7, read (-2)].map symbols.resolve) {} =
          ([vector, read 7, read (-2)].map fun e => .ok (nodeOf (symbols.resolve e)), after) ∧
        nodeOf (symbols.resolve (read 7)) = nodeOf (symbols.resolve (read (-2))) ∧
        ∃ node ∈ after.graph.valueNodes,
          after.graph.node? (nodeOf (.atom (.float (.ofInt 2)))) = some node := by
  intro symbols read vector
  have known : ∀ e ∈ [vector, read 7, read (-2)], e.known = true := by
    simp [vector, read, Expr.known, Atom.known]
  obtain ⟨nodeOf, after, run, calls, _, nodes, _⟩ :=
    valueNodes_are_classes symbols .plain [vector, read 7, read (-2)] known
  refine ⟨known, nodeOf, after, run, (calls _ (by simp) _ (by simp)).mpr ?_, nodes _ ?_⟩
  · exact (agrees_true_iff _ _).mpr ⟨rfl, rfl, rfl⟩
  · refine ⟨symbols.resolve vector, by simp, ?_⟩
    exact .input (List.mem_cons_of_mem _ (List.mem_cons_self ..)) .own

end ScriptFlow
