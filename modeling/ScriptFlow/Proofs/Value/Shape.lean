import ScriptFlow.Proofs.Graph.PinNames

/-! Shapes of operands. Every input of a shape is fed by the tree of an operand again, synthesised
numbers included, and what holds of an operand and is handed down to its parts holds of all that feed
it; being known is such a property, and then nothing in the shape stops the construction. The inputs
have names of their own, also where a context access lends its owner to the shape of its member. -/
namespace ScriptFlow

/-- The property is handed down: from an operand to its own operands, and it holds of the numbers
that shapes make up. -/
structure Hereditary (holds : Expr String → Prop) : Prop where
  number : ∀ x, holds (.atom (.float x))
  unary : ∀ {op a}, holds (.unary op a) → holds a
  binary : ∀ {op a b}, holds (.binary op a b) → holds a ∧ holds b
  variadic : ∀ {op operands}, holds (.variadic op operands) → ∀ e ∈ operands, holds e
  led : ∀ {op leader operands}, holds (.led op leader operands) →
    holds leader ∧ ∀ e ∈ operands, holds e
  switch : ∀ {endOffset index cases default}, holds (.switch endOffset index cases default) →
    holds index ∧ (∀ c ∈ cases, holds c.value ∧ holds c.result) ∧ holds default

/-- The parts of known operands are known. -/
private theorem known_hereditary : Hereditary (·.known = true) where
  number _ := rfl
  unary known := known
  binary known := by simpa [Expr.known] using known
  variadic known := by simpa [Expr.known, knownAll_iff] using known
  led known := by simpa [Expr.known, knownAll_iff] using known
  switch known := by simpa [Expr.known, knownCases_iff, and_assoc] using known

private theorem true_hereditary : Hereditary fun _ => True := by
  constructor <;> simp

/-- What a shape is like that is made of operands with a property. -/
structure ValueShape.MadeOf (mode : GraphMode) (holds : Expr String → Prop)
    (shape : ValueShape ValueTree) : Prop where
  /-- Every input is fed by such an operand. -/
  fed : ∀ pin tree, ValuePart.operand pin tree ∈ shape.parts →
    ∃ e : Expr String, holds e ∧ tree = e.valueTree mode
  /-- An unknown token in the shape is such an operand. -/
  gaps : ∀ opcode, ValuePart.gap opcode ∈ shape.parts → holds (.atom (.unknown opcode))
  /-- No two inputs share a name. -/
  distinct : (inputNames shape.parts).Nodup

/-- What the shape of a known operand is like. -/
structure ValueShape.Sound (mode : GraphMode) (shape : ValueShape ValueTree) : Prop where
  /-- Every input is fed by a known operand. -/
  fed : ∀ pin tree, ValuePart.operand pin tree ∈ shape.parts →
    ∃ e : Expr String, e.known = true ∧ tree = e.valueTree mode
  /-- There is no unknown token. -/
  whole : ∀ opcode, ValuePart.gap opcode ∉ shape.parts
  /-- No two inputs share a name. -/
  distinct : (inputNames shape.parts).Nodup

variable {mode : GraphMode} {holds : Expr String → Prop}

/-- A shape that leaves room for the input of an owner. -/
private structure Ownable (mode : GraphMode) (holds : Expr String → Prop)
    (shape : ValueShape ValueTree) : Prop extends shape.MadeOf mode holds where
  free : "owner" ∉ inputNames shape.parts

/-- A shape without inputs is sound whatever else it shows. -/
private theorem sound_of_leaf {title : Option String} {token : String}
    {parts : List (ValuePart ValueTree)} (bare : inputNames parts = [])
    (whole : ∀ opcode, ValuePart.gap opcode ∉ parts) : Ownable mode holds ⟨title, token, parts⟩ where
  fed pin tree member := by
    have named : pin ∈ inputNames parts := List.mem_map_of_mem (mem_inputsOf.mpr member)
    simp [bare] at named
  gaps opcode member := absurd member (whole opcode)
  distinct := by simp [bare]
  free := by simp [bare]

private theorem sound_of_inputs {title : Option String} {token : String}
    (inputs : List (String × Expr String)) (each : ∀ input ∈ inputs, holds input.2)
    (distinct : (inputs.map (·.1)).Nodup) (free : "owner" ∉ inputs.map (·.1)) :
    Ownable mode holds ⟨title, token, inputs.map fun input => .operand input.1 (input.2.valueTree mode)⟩ := by
  have names : inputNames (inputs.map fun input =>
      (ValuePart.operand input.1 (input.2.valueTree mode))) = inputs.map (·.1) := by
    clear each distinct free
    induction inputs with
    | nil => rfl
    | cons input rest ih => simpa [inputNames] using ih
  refine ⟨⟨?_, ?_, ?_⟩, ?_⟩
  · intro pin tree member
    obtain ⟨input, inputMember, same⟩ := List.mem_map.mp member
    cases same
    exact ⟨input.2, each input inputMember, rfl⟩
  · intro opcode member
    simp at member
  · simpa only [names] using distinct
  · simpa only [names] using free

private theorem sound_of_numbered {title : Option String} {token : String} (words : String)
    (shift : Nat) (operands : List (Expr String)) (each : ∀ e ∈ operands, holds e)
    (different : ¬ words.toList <+: "owner".toList) :
    Ownable mode holds ⟨title, token,
      numbered (fun i => words ++ natText (i + shift)) (operands.map (·.valueTree mode))⟩ where
  fed pin tree member := by
    rw [← mem_inputsOf, inputsOf_numbered] at member
    obtain ⟨⟨value, i⟩, indexed, same⟩ := List.mem_map.mp member
    cases same
    obtain ⟨e, eMember, rfl⟩ := List.mem_map.mp (List.fst_mem_of_mem_zipIdx indexed)
    exact ⟨e, each e eMember, rfl⟩
  gaps opcode member := by simp [numbered] at member
  distinct := inputNames_numbered_nodup words shift _
  free := owner_not_numbered different

private theorem generic_sound {token : String} (operands : List (Expr String))
    (each : ∀ e ∈ operands, holds e) :
    Ownable mode holds (.generic token (operands.map (·.valueTree mode))) :=
  sound_of_numbered "operand_" 0 operands each (by decide)

private theorem unary_sound (op : Unary String) {a : Expr String} (operand : holds a) :
    Ownable mode holds (op.valueShape a (a.valueTree mode)) := by
  have generic (token : String) : Ownable mode holds (.generic token [a.valueTree mode]) :=
    generic_sound [a] (by simpa using operand)
  have single (title token pin : String) (free : "owner" ≠ pin) :
      Ownable mode holds (.titled title token [.operand pin (a.valueTree mode)]) :=
    sound_of_inputs [(pin, a)] (by simpa using operand) (by simp) (by simpa using free)
  cases op with
  | wrap w => cases w <;> first | exact generic _ | exact single _ _ _ (by decide)
  | classCast kind target => cases kind <;> first | exact generic _ | exact single _ _ _ (by decide)
  | text kind => exact sound_of_leaf rfl (by simp)
  | structMember member => exact single _ _ _ (by decide)
  | primitiveCast conversion => exact single _ _ _ (by decide)
  | _ => exact generic _

private theorem binary_sound (op : Binary String) {a b : Expr String} (first : holds a)
    (second : holds b) :
    Ownable mode holds (op.valueShape a b (a.valueTree mode) (b.valueTree mode)) := by
  have generic (token : String) :
      Ownable mode holds (.generic token [a.valueTree mode, b.valueTree mode]) :=
    generic_sound [a, b] (by simp [first, second])
  have pair (title token left right : String) (distinct : left ≠ right)
      (free : "owner" ∉ [left, right]) : Ownable mode holds (.titled title token
        [.operand left (a.valueTree mode), .operand right (b.valueTree mode)]) :=
    sound_of_inputs [(left, a), (right, b)] (by simp [first, second]) (by simpa using distinct) free
  cases op with
  | arrayElement => exact pair _ _ _ _ (by decide) (by decide)
  | context kind skip field => exact pair _ _ _ _ (by decide) (by decide)
  | tableText table => exact sound_of_leaf rfl (by simp)
  | _ => exact generic _

private theorem variadic_sound (op : Variadic String) {operands : List (Expr String)}
    (each : ∀ e ∈ operands, holds e) :
    Ownable mode holds (op.valueShape (operands.map (·.valueTree mode))) := by
  cases op with
  | call kind target => exact sound_of_numbered "arg_" 1 operands each (by decide)
  | virtualCall kind name =>
    cases kind with
    | dispatched => exact sound_of_numbered "arg_" 1 operands each (by decide)
    | localScript => exact generic_sound operands each
  | struct type => exact sound_of_numbered "property " 1 operands each (by decide)
  | collection kind inner => exact generic_sound operands each
  | map key value => exact generic_sound operands each

private theorem switch_sound (token : String) {index default : Expr String}
    {cases : List (SwitchCase (Expr String))} (first : holds index)
    (each : ∀ c ∈ cases, holds c.value ∧ holds c.result) (last : holds default) :
    Ownable mode holds (switchShape token (index.valueTree mode)
      (cases.map fun c => (c.value.valueTree mode, c.result.valueTree mode))
      (default.valueTree mode)) := by
  have names (pairs : List (ValueTree × ValueTree)) : inputNames (caseParts pairs ++
      [.operand "index" (index.valueTree mode), .operand "default" (default.valueTree mode)]) =
      inputNames (caseParts pairs) ++ ["index", "default"] := by
    simp [inputNames]
  refine ⟨⟨?_, ?_, ?_⟩, ?_⟩
  · intro pin tree member
    rcases List.mem_append.mp member with inCase | other
    · obtain ⟨⟨⟨value, result⟩, i⟩, indexed, side⟩ := List.mem_flatMap.mp inCase
      obtain ⟨c, cMember, same⟩ := List.mem_map.mp (List.fst_mem_of_mem_zipIdx indexed)
      cases same
      simp only [List.mem_cons, ValuePart.operand.injEq, List.not_mem_nil, or_false] at side
      rcases side with ⟨_, rfl⟩ | ⟨_, rfl⟩
      · exact ⟨c.value, (each c cMember).1, rfl⟩
      · exact ⟨c.result, (each c cMember).2, rfl⟩
    · simp only [List.mem_cons, ValuePart.operand.injEq, List.not_mem_nil, or_false] at other
      rcases other with ⟨_, rfl⟩ | ⟨_, rfl⟩
      · exact ⟨index, first, rfl⟩
      · exact ⟨default, last, rfl⟩
  · intro opcode member
    simp [switchShape, ValueShape.titled, caseParts] at member
  · simp only [switchShape, ValueShape.titled, names]
    refine List.nodup_append.mpr ⟨inputNames_cases_nodup _, by decide, ?_⟩
    intro name inCase other outside same
    subst same
    simp only [List.mem_cons, List.not_mem_nil, or_false] at outside
    rcases outside with rfl | rfl <;> exact not_mem_inputNames_cases (by decide) inCase
  · simp only [switchShape, ValueShape.titled, names, List.mem_append, not_or]
    exact ⟨not_mem_inputNames_cases (by decide), by decide⟩

section Hereditary

variable (hereditary : Hereditary holds)
include hereditary

private theorem components_sound {title : Option String} {token : String}
    (components : List (String × Single)) (distinct : (components.map (·.1)).Nodup)
    (free : "owner" ∉ components.map (·.1)) :
    Ownable mode holds ⟨title, token, componentParts components⟩ := by
  have numbers : ∀ input ∈ components.map fun c => (c.1, (Expr.atom (.float c.2) : Expr String)),
      holds input.2 := by
    intro input member
    obtain ⟨c, _, rfl⟩ := List.mem_map.mp member
    exact hereditary.number c.2
  have sound : Ownable mode holds ⟨title, token, _⟩ := sound_of_inputs _ numbers
    (by simpa [Function.comp_def] using distinct) (by simpa [Function.comp_def] using free)
  rw [List.map_map] at sound
  exact sound

private theorem atom_sound {op : Atom String} (own : holds (.atom op)) :
    Ownable mode holds op.valueShape := by
  cases op with
  | readVariable scope target =>
    cases scope <;> exact sound_of_leaf rfl (by simp [numbered])
  | marker m => cases m <;> exact sound_of_leaf rfl (by simp [numbered])
  | vector v => exact components_sound hereditary _ (by simp) (by simp)
  | rotation r => exact components_sound hereditary _ (by simp) (by simp)
  | transform t => exact components_sound hereditary _ (by simp) (by simp)
  | unknown opcode =>
    refine ⟨⟨?_, ?_, List.nodup_nil⟩, List.not_mem_nil⟩
    · intro pin tree member
      simp [Atom.valueShape] at member
    · intro other member
      simp only [Atom.valueShape, List.mem_singleton, ValuePart.gap.injEq] at member
      exact member ▸ own
  | _ => exact sound_of_leaf rfl (by simp [numbered])

private theorem view_sound (mode : GraphMode) {e : Expr String} (own : holds e) :
    Ownable mode holds (e.valueView mode).shape := by
  cases e with
  | atom op =>
    have sound : Ownable mode holds op.valueShape := atom_sound hereditary own
    cases op <;> exact sound
  | unary op a => exact unary_sound op (hereditary.unary own)
  | binary op a b =>
    obtain ⟨first, second⟩ := hereditary.binary own
    have sound : Ownable mode holds (op.valueShape a b _ _) := binary_sound op first second
    cases mode <;> cases op <;> exact sound
  | localizedText source key space => exact sound_of_leaf rfl (by simp)
  | variadic op operands =>
    simpa only [Expr.valueView, ValueView.plain, valueTrees_eq_map] using
      variadic_sound op (hereditary.variadic own)
  | led op leader operands =>
    obtain ⟨first, each⟩ := hereditary.led own
    simp only [Expr.valueView, ValueView.plain, valueTrees_eq_map]
    exact generic_sound (leader :: operands) (by simpa using ⟨first, each⟩)
  | switch endOffset index cases default =>
    obtain ⟨first, each, last⟩ := hereditary.switch own
    simp only [Expr.valueView, ValueView.plain, caseTrees_eq_map]
    exact switch_sound _ first each last

/-- An operand is an unknown token, or it has a node of its own whose shape is made of operands like
it. In the merged mode the shape of a context access is that of its member after the input of its
owner. -/
theorem valueTree_madeOf (mode : GraphMode) (e : Expr String) (own : holds e) :
    (∃ opcode, e = .atom (.unknown opcode)) ∨
      ∃ shape, e.valueTree mode = .node e shape ∧ shape.MadeOf mode holds := by
  have made := view_sound hereditary mode own
  cases e with
  | atom op =>
    cases op with
    | unknown opcode => exact .inl ⟨opcode, rfl⟩
    | _ => exact .inr ⟨_, rfl, made.toMadeOf⟩
  | binary op a b =>
    obtain ⟨first, second⟩ := hereditary.binary own
    cases mode with
    | plain => exact .inr ⟨_, rfl, made.toMadeOf⟩
    | pseudoBlueprint =>
      cases op with
      | context kind skip field =>
        have member := view_sound hereditary .pseudoBlueprint second
        refine .inr ⟨_, rfl, ⟨?_, ?_, ?_⟩⟩
        · intro pin tree fed
          rcases List.mem_cons.mp fed with owner | fed
          · cases owner
            exact ⟨a, first, rfl⟩
          · exact member.fed pin tree fed
        · intro opcode gap
          rcases List.mem_cons.mp gap with owner | gap
          · cases owner
          · exact member.gaps opcode gap
        · exact List.nodup_cons.mpr ⟨member.free, member.distinct⟩
      | _ => exact .inr ⟨_, rfl, made.toMadeOf⟩
  | _ => exact .inr ⟨_, rfl, made.toMadeOf⟩

end Hereditary

/-- The tree of an operand has the operand at its root, and is fed by trees of operands. -/
theorem valueTree_fed {e operand : Expr String} {shape : ValueShape ValueTree}
    (own : e.valueTree mode = .node operand shape) :
    e = operand ∧ ∀ pin tree, ValuePart.operand pin tree ∈ shape.parts →
      ∃ part : Expr String, part.valueTree mode = tree := by
  rcases valueTree_madeOf true_hereditary mode e trivial with ⟨opcode, rfl⟩ | ⟨_, tree, made⟩
  · cases own
  · rw [own] at tree
    cases tree
    refine ⟨rfl, ?_⟩
    intro pin tree member
    obtain ⟨part, _, rfl⟩ := made.fed pin tree member
    exact ⟨part, rfl⟩

/-- A known operand has a node of its own, whose shape is sound. -/
theorem valueTree_of_known (mode : GraphMode) {e : Expr String} (known : e.known = true) :
    ∃ shape, e.valueTree mode = .node e shape ∧ shape.Sound mode := by
  rcases valueTree_madeOf known_hereditary mode e known with ⟨opcode, rfl⟩ | ⟨shape, tree, made⟩
  · cases known
  · refine ⟨shape, tree, made.fed, ?_, made.distinct⟩
    intro opcode gap
    cases made.gaps opcode gap

end ScriptFlow
