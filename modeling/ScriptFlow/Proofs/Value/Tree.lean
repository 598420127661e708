import ScriptFlow.Graph.ValueTree
import ScriptFlow.Proofs.Expr.NormalForm

/-! Value trees up to what a reader sees of them. The picture of a tree is what its node shows, with
the pictures that feed its inputs; the operands themselves leave no trace in it. Bringing an operand
into normal form brings its tree into normal form and keeps the picture, so that operands with one
normal form look the same however they are written. -/
namespace ScriptFlow

/-- What holds of a tree whenever it holds of the trees that feed it holds of every tree. -/
@[induction_eliminator]
theorem ValueTree.partInduction {motive : ValueTree → Prop}
    (gap : ∀ opcode, motive (.gap opcode))
    (node : ∀ operand title token parts,
      (∀ pin tree, ValuePart.operand pin tree ∈ parts → motive tree) →
      motive (.node operand ⟨title, token, parts⟩)) (tree : ValueTree) : motive tree := by
  refine @ValueTree.rec motive
    (fun shape => ∀ pin tree, ValuePart.operand pin tree ∈ shape.parts → motive tree)
    (fun parts => ∀ pin tree, ValuePart.operand pin tree ∈ parts → motive tree)
    (fun part => ∀ pin tree, part = ValuePart.operand pin tree → motive tree)
    gap (fun operand shape fed => node operand _ _ _ fed) (fun _ _ _ fed => fed) ?_ ?_ ?_ ?_ ?_ ?_ tree
  · simp
  · intro part rest partHolds restHolds pin tree member
    rcases List.mem_cons.mp member with same | member
    · exact partHolds pin tree same.symm
    · exact restHolds pin tree member
  · intro pin value holds otherPin tree same
    cases same
    exact holds
  all_goals intros; contradiction

/-- The inputs of a node with what feeds them, in order. -/
@[simp] def inputsOf {τ : Type} : List (ValuePart τ) → List (String × τ)
  | [] => []
  | .operand pin value :: rest => (pin, value) :: inputsOf rest
  | .note _ :: rest => inputsOf rest
  | .variableRead _ :: rest => inputsOf rest
  | .gap _ :: rest => inputsOf rest

/-- The lines of text of a node, in order. -/
@[simp] def notesOf {τ : Type} : List (ValuePart τ) → List String
  | [] => []
  | .note line :: rest => line :: notesOf rest
  | .operand .. :: rest => notesOf rest
  | .variableRead _ :: rest => notesOf rest
  | .gap _ :: rest => notesOf rest

theorem mem_inputsOf {τ : Type} {parts : List (ValuePart τ)} {pin : String} {value : τ} :
    (pin, value) ∈ inputsOf parts ↔ ValuePart.operand pin value ∈ parts := by
  induction parts with
  | nil => simp
  | cons part rest ih => cases part <;> simp [ih]

@[simp] theorem inputsOf_append {τ : Type} (first second : List (ValuePart τ)) :
    inputsOf (first ++ second) = inputsOf first ++ inputsOf second := by
  induction first with
  | nil => rfl
  | cons part rest ih => cases part <;> simp [ih]

@[simp] theorem notesOf_append {τ : Type} (first second : List (ValuePart τ)) :
    notesOf (first ++ second) = notesOf first ++ notesOf second := by
  induction first with
  | nil => rfl
  | cons part rest ih => cases part <;> simp [ih]

/-- What a node shows, and the pictures at its inputs. -/
inductive Picture where
  | node (label : String) (annotations : List String) (unmodeled : Bool)
      (inputs : List (String × Picture))

mutual

/-- The picture of a tree. An operation without a title is shown under the token of the operand and
marked. An unknown token, which has no node, is shown as a marked leaf. -/
def ValueTree.picture : ValueTree → Picture
  | .gap opcode => .node (Atom.unknown opcode : Atom String).token.name [] true []
  | .node operand ⟨title, _, parts⟩ =>
    .node (title.getD operand.tokenName) (notesOf parts) title.isNone (partPictures parts)

/-- The pictures at the inputs of a node. -/
def partPictures : List (ValuePart ValueTree) → List (String × Picture)
  | [] => []
  | .operand pin tree :: rest => (pin, tree.picture) :: partPictures rest
  | .note _ :: rest => partPictures rest
  | .variableRead _ :: rest => partPictures rest
  | .gap _ :: rest => partPictures rest

end

/-- The picture of an operand: its own shape, and the shapes of everything it is made of. -/
def Expr.picture (mode : GraphMode) (e : Expr String) : Picture := (e.valueTree mode).picture

theorem partPictures_eq_map (parts : List (ValuePart ValueTree)) :
    partPictures parts = (inputsOf parts).map fun input => (input.1, input.2.picture) := by
  induction parts with
  | nil => rfl
  | cons part rest ih => cases part <;> simp [partPictures, ih]

/-! ### Normal forms of trees -/

mutual

/-- The tree with every operand in normal form. -/
def ValueTree.normal : ValueTree → ValueTree
  | .gap opcode => .gap opcode
  | .node operand ⟨title, token, parts⟩ => .node operand.normal ⟨title, token, normalParts parts⟩

/-- The parts of a node with every operand in normal form. -/
def normalParts : List (ValuePart ValueTree) → List (ValuePart ValueTree)
  | [] => []
  | .operand pin tree :: rest => .operand pin tree.normal :: normalParts rest
  | .note line :: rest => .note line :: normalParts rest
  | .variableRead name :: rest => .variableRead name :: normalParts rest
  | .gap opcode :: rest => .gap opcode :: normalParts rest

end

/-- The shape with every operand in normal form. -/
def ValueShape.normal (shape : ValueShape ValueTree) : ValueShape ValueTree :=
  { shape with parts := normalParts shape.parts }

theorem normal_tokenName (e : Expr String) : e.normal.tokenName = e.tokenName := by
  cases e with
  | binary op a b => cases op <;> rfl
  | _ => rfl

theorem normal_literalText (e : Expr String) : e.normal.literalText = e.literalText := by
  cases e with
  | atom op => rfl
  | binary op a b => cases op <;> rfl
  | _ => rfl

theorem inputsOf_normalParts (parts : List (ValuePart ValueTree)) :
    inputsOf (normalParts parts) = (inputsOf parts).map fun input => (input.1, input.2.normal) := by
  induction parts with
  | nil => rfl
  | cons part rest ih => cases part <;> simp [normalParts, ih]

theorem notesOf_normalParts (parts : List (ValuePart ValueTree)) :
    notesOf (normalParts parts) = notesOf parts := by
  induction parts with
  | nil => rfl
  | cons part rest ih => cases part <;> simp [normalParts, ih]

/-! ### Trees of normal forms -/

theorem normalParts_append (first second : List (ValuePart ValueTree)) :
    normalParts (first ++ second) = normalParts first ++ normalParts second := by
  induction first with
  | nil => rfl
  | cons part rest ih => cases part <;> simp [normalParts, ih]

theorem normalParts_numbered (name : Nat → String) (trees : List ValueTree) :
    normalParts (numbered name trees) = numbered name (trees.map ValueTree.normal) := by
  suffices general : ∀ k, normalParts ((trees.zipIdx k).map fun p => .operand (name p.2) p.1) =
      ((trees.map ValueTree.normal).zipIdx k).map fun p => .operand (name p.2) p.1 from general 0
  induction trees with
  | nil => intro k; rfl
  | cons tree rest ih => intro k; simp [normalParts, ih]

/-- Numbers are in normal form already. -/
theorem normalParts_components (components : List (String × Single)) :
    normalParts (componentParts components) = componentParts components := by
  induction components with
  | nil => rfl
  | cons component rest ih =>
    simpa [componentParts, normalParts, ValueTree.normal, ValueShape.literal, ValueShape.titled,
      Expr.normal] using ih

theorem normalParts_cases (cases : List (ValueTree × ValueTree)) :
    normalParts (caseParts cases) = caseParts (cases.map fun c => (c.1.normal, c.2.normal)) := by
  -- The induction moves the number of the first case.
  unfold caseParts
  generalize 0 = k
  induction cases generalizing k with
  | nil => rfl
  | cons c rest ih => simp [normalParts, ih]

theorem Atom.valueShape_normal (op : Atom String) : op.valueShape.normal = op.valueShape := by
  unfold ValueShape.normal
  cases op with
  | readVariable scope target => cases scope <;> rfl
  | marker m => cases m <;> rfl
  | vector v => simp [Atom.valueShape, ValueShape.titled, normalParts_components]
  | rotation r => simp [Atom.valueShape, ValueShape.titled, normalParts_components]
  | transform t => simp [Atom.valueShape, ValueShape.titled, normalParts_components]
  | _ => rfl

private theorem ValueShape.generic_normal (token : String) (trees : List ValueTree) :
    (ValueShape.generic token trees).normal = .generic token (trees.map ValueTree.normal) := by
  simp [ValueShape.normal, ValueShape.generic, normalParts_numbered]

theorem Unary.valueShape_normal (op : Unary String) (a : Expr String) (tree : ValueTree) :
    (op.valueShape a tree).normal = op.valueShape a.normal tree.normal := by
  cases op with
  | wrap w => cases w <;> rfl
  | classCast kind target => cases kind <;> rfl
  | text kind => simp [Unary.valueShape, ValueShape.normal, ValueShape.literal, ValueShape.titled,
      normalParts, normal_literalText]
  | _ => rfl

theorem Binary.valueShape_normal (op : Binary String) (a b : Expr String)
    (first second : ValueTree) :
    (op.valueShape a b first second).normal =
      op.normal.valueShape a.normal b.normal first.normal second.normal := by
  cases op with
  | tableText table => simp [Binary.valueShape, Binary.normal, ValueShape.normal, ValueShape.titled,
      normalParts, normal_literalText, Binary.token]
  | _ => rfl

theorem Variadic.valueShape_normal (op : Variadic String) (trees : List ValueTree) :
    (op.valueShape trees).normal = op.valueShape (trees.map ValueTree.normal) := by
  cases op with
  | virtualCall kind name =>
    cases kind <;> simp [Variadic.valueShape, ValueShape.normal, ValueShape.generic,
      ValueShape.titled, normalParts_numbered]
  | _ => simp [Variadic.valueShape, ValueShape.normal, ValueShape.generic, ValueShape.titled,
      normalParts_numbered]

theorem valueTrees_eq_map (mode : GraphMode) (operands : List (Expr String)) :
    valueTrees mode operands = operands.map (·.valueTree mode) := by
  induction operands with
  | nil => rfl
  | cons e rest ih => simp [valueTrees, Expr.valueTree, ih]

theorem caseTrees_eq_map (mode : GraphMode) (cases : List (SwitchCase (Expr String))) :
    caseTrees mode cases = cases.map fun c => (c.value.valueTree mode, c.result.valueTree mode) := by
  induction cases with
  | nil => rfl
  | cons c rest ih => simp [caseTrees, Expr.valueTree, ih]

@[simp] theorem node_normal (operand : Expr String) (shape : ValueShape ValueTree) :
    (ValueTree.node operand shape).normal = .node operand.normal shape.normal := by
  rw [ValueTree.normal]
  rfl

private theorem plain_normal {e e' : Expr String} {shape shape' : ValueShape ValueTree}
    (operands : e.normal = e') (shapes : shape.normal = shape') :
    (ValueView.plain e shape).tree.normal = (ValueView.plain e' shape').tree ∧
      (ValueView.plain e shape).shape.normal = (ValueView.plain e' shape').shape := by
  subst operands shapes
  exact ⟨node_normal e shape, rfl⟩

private theorem valueView_normal (mode : GraphMode) (e : Expr String) :
    (e.valueView mode).tree.normal = (e.normal.valueView mode).tree ∧
      (e.valueView mode).shape.normal = (e.normal.valueView mode).shape := by
  induction e with
  | atom op =>
    cases op with
    | unknown opcode => exact ⟨rfl, rfl⟩
    | _ => exact plain_normal rfl (Atom.valueShape_normal _)
  | unary op a ih =>
    simp only [Expr.normal, Expr.valueView, ← ih.1]
    exact plain_normal rfl (Unary.valueShape_normal op a _)
  | binary op a b first second =>
    have shapes := Binary.valueShape_normal op a b (a.valueView mode).tree (b.valueView mode).tree
    rw [first.1, second.1] at shapes
    have owned : ((b.valueView mode).shape.owned (a.valueView mode).tree).normal =
        (b.normal.valueView mode).shape.owned (a.normal.valueView mode).tree := by
      rw [← first.1, ← second.2]
      rfl
    cases mode with
    | plain => exact plain_normal rfl shapes
    | pseudoBlueprint =>
      cases op with
      | context kind skip field => exact ⟨(node_normal _ _).trans (by rw [owned]; rfl), shapes⟩
      | _ => exact plain_normal rfl shapes
  | localizedText source key space =>
    refine plain_normal rfl ?_
    simp [localizedShape, ValueShape.normal, ValueShape.titled, normalParts, normal_literalText]
  | variadic op operands ih =>
    have trees : (valueTrees mode operands).map ValueTree.normal =
        valueTrees mode (normalAll operands) := by
      simp only [valueTrees_eq_map, normalAll_eq_map, List.map_map]
      exact List.map_congr_left fun e member => (ih e member).1
    refine plain_normal rfl ?_
    rw [Variadic.valueShape_normal, trees]
  | led op leader operands first ih =>
    have trees : (valueTrees mode operands).map ValueTree.normal =
        valueTrees mode (normalAll operands) := by
      simp only [valueTrees_eq_map, normalAll_eq_map, List.map_map]
      exact List.map_congr_left fun e member => (ih e member).1
    refine plain_normal rfl ?_
    rw [ValueShape.generic_normal, List.map_cons, trees, first.1]
  | switch endOffset index cases default first ih last =>
    have trees : (caseTrees mode cases).map (fun c => (c.1.normal, c.2.normal)) =
        caseTrees mode (normalCases cases) := by
      simp only [caseTrees_eq_map, normalCases_eq_map, List.map_map]
      refine List.map_congr_left fun c member => ?_
      exact Prod.ext (ih c member).1.1 (ih c member).2.1
    refine plain_normal rfl ?_
    simp only [switchShape, ValueShape.normal, ValueShape.titled, normalParts_append,
      normalParts_cases, normalParts, trees, first.1, last.1]
    rfl

/-- The tree of a normal form is the normal form of the tree. -/
theorem valueTree_normal (mode : GraphMode) (e : Expr String) :
    (e.valueTree mode).normal = e.normal.valueTree mode :=
  (valueView_normal mode e).1

end ScriptFlow
