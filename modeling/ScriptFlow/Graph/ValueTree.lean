import ScriptFlow.Expr.Encoding
import ScriptFlow.Settings.Basic
import ScriptFlow.Symbols

/-!
Value trees: what the node of a data operand looks like, and what feeds it. The tree of an operand
is worked out from the operand alone, without regard to what other operands look like; the builder
then places trees in a graph and lets equal operands share a node.

An operation that has no shape of its own gets its operands as numbered inputs.
-/

namespace ScriptFlow

/-- One thing that a value node gets, in the order in which it gets them. -/
inductive ValuePart (τ : Type) where
  /-- An input fed by another value. -/
  | operand (pin : String) (value : τ)
  /-- A line of text. -/
  | note (line : String)
  /-- An entry in the index of variables. -/
  | variableRead (name : String)
  /-- An unknown token, at which the construction fails. -/
  | gap (opcode : UInt8)

/-- What a value node consists of. -/
structure ValueShape (τ : Type) where
  /-- The title, if the operation has a shape of its own. -/
  title : Option String
  /-- The token of the operation that is shown. -/
  token : String
  /-- What the node gets. -/
  parts : List (ValuePart τ)

/-- A data operand with the shape of its node. -/
inductive ValueTree where
  /-- An unknown token, which has no node. -/
  | gap (opcode : UInt8)
  /-- A node for the given operand. -/
  | node (operand : Expr String) (shape : ValueShape ValueTree)

/-- A shape with a title and no inputs. -/
def ValueShape.titled {τ : Type} (title token : String) (parts : List (ValuePart τ)) :
    ValueShape τ :=
  ⟨some title, token, parts⟩

/-- Inputs with numbered names. -/
def numbered {τ : Type} (name : Nat → String) (values : List τ) : List (ValuePart τ) :=
  values.zipIdx.map fun (value, i) => .operand (name i) value

/-- The shape of an operation without a rule of its own: its operands, numbered from zero. -/
def ValueShape.generic {τ : Type} (token : String) (values : List τ) : ValueShape τ :=
  ⟨none, token, numbered (fun i => "operand_" ++ natText i) values⟩

/-- The name of the input for an argument of a call. -/
def argumentPin (i : Nat) : String := "arg_" ++ natText (i + 1)

/-- The displayed name of a struct member: its short name up to the first underscore, after which
come generated characters. -/
def memberName (qualified : String) : String :=
  String.ofList ((shortName qualified).toList.takeWhile (· ≠ '_'))

/-- The text of a string constant; any other expression is named by its token. -/
def Expr.literalText : Expr String → String
  | .atom (.string text) => text
  | .atom (.unicodeString text) => text
  | e => e.tokenName

/-- A shape with one line of text. -/
def ValueShape.literal {τ : Type} (title token line : String) : ValueShape τ :=
  .titled title token [.note line]

/-- A shape whose inputs are constant numbers. -/
def componentParts (components : List (String × Single)) : List (ValuePart ValueTree) :=
  components.map fun (pin, x) =>
    let float : Atom String := .float x
    .operand pin (.node (.atom float) (.literal "Float" float.token.name x.text))

/-- The shape of an operation without operands. -/
def Atom.valueShape (op : Atom String) : ValueShape ValueTree :=
  let token := op.token.name
  match op with
  | .readVariable scope target =>
    let read (title : String) : ValueShape ValueTree :=
      .titled title token [.note (shortName target), .variableRead target]
    match scope with
    | .localFrame => read "LocalVariable"
    | .localOut => read "LocalOut"
    | .instanceMember => read "InstanceVariable"
    | .classDefault => read "DefaultVariable"
    | .sparseData => .generic token []
  | .object target => .literal "Object" token target
  | .skipOffset offset => .literal "Skip Offset" token (natText offset.toNat)
  | .marker .selfObject => .titled "Self" token []
  | .marker .true => .literal "Bool" token "True"
  | .marker .false => .literal "Bool" token "False"
  | .marker .noObject => .titled "Null Reference" token []
  | .int n => .literal "Int" token (intText n.toInt)
  | .int64 n => .literal "Int64" token (intText n.toInt)
  | .uint64 n => .literal "UInt64" token (natText n.toNat)
  | .float x => .literal "Float" token x.text
  | .byte n => .literal "Byte" token (natText n.toNat)
  | .string text => .literal "String" token ("\"" ++ text ++ "\"")
  | .unicodeString text => .literal "UniString" token text
  | .name text => .literal "Name" token text
  | .emptyText => .literal "Text" token "Empty"
  | .vector v => .titled "Vector" token (componentParts [("x", v.x), ("y", v.y), ("z", v.z)])
  | .rotation r =>
    .titled "Rotation" token
      (componentParts [("roll", r.roll), ("pitch", r.pitch), ("yaw", r.yaw)])
  | .transform t =>
    .titled "Transform" token (componentParts
      [("translationX", t.displacement.x), ("translationY", t.displacement.y),
        ("translationZ", t.displacement.z), ("rotationX", t.rotation.x),
        ("rotationY", t.rotation.y), ("rotationZ", t.rotation.z), ("rotationW", t.rotation.w),
        ("scaleX", t.scale.x), ("scaleY", t.scale.y), ("scaleZ", t.scale.z)])
  | .unknown opcode => ⟨none, token, [.gap opcode]⟩
  | .property _ | .jump _ | .pushFlow _ | .marker _ | .intByte _ | .instanceDelegate _ =>
    .generic token []

/-- The shape of an operation with one operand. A text shows its string and has no inputs. -/
def Unary.valueShape (op : Unary String) (operand : Expr String) (value : ValueTree) :
    ValueShape ValueTree :=
  let token := op.token.name
  match op with
  | .wrap .interfaceContext => .titled "Interface" token [.operand "interface" value]
  | .structMember name =>
    .titled ("Struct Member: " ++ memberName name) token [.operand "struct" value]
  | .primitiveCast conversion =>
    .titled ("Primitive Cast: " ++ conversion.describe) token [.operand "expression" value]
  | .classCast .dynamic name =>
    .titled ("Dynamic Cast to " ++ shortName name) token [.operand "expression" value]
  | .text _ => .literal "Text" token ("SourceString: " ++ operand.literalText)
  | .wrap _ | .jumpIfNot _ | .skip _ | .assert .. | .letPersistent _ | .classCast .. =>
    .generic token [value]

/-- The shape of an operation with two operands. -/
def Binary.valueShape (op : Binary String) (first second : Expr String)
    (value₁ value₂ : ValueTree) :
    ValueShape ValueTree :=
  let token := op.token.name
  match op with
  | .arrayElement =>
    .titled "GetByRef" token [.operand "Array" value₁, .operand "Index" value₂]
  | .context .. => .titled "Context" token [.operand "object" value₁, .operand "member" value₂]
  | .tableText _ =>
    .titled "Text" token
      [.note ("TableId: " ++ first.literalText), .note ("TableKey: " ++ second.literalText)]
  | .assignProperty _ | .assign _ | .addDelegate | .removeDelegate | .bindDelegate _ =>
    .generic token [value₁, value₂]

/-- The shape of a text with a source, a key and a name space. -/
def localizedShape (source key space : Expr String) : ValueShape ValueTree :=
  .titled "Text" textToken.name
    [.note ("SourceString: " ++ source.literalText), .note ("LocalizationKey: " ++ key.literalText),
      .note ("LocalizationNamespace: " ++ space.literalText)]

/-- The word for a call in the title of a value. -/
def CallKind.valueWord : CallKind → String
  | .math => "CallMath"
  | .final => "FinalFunc"
  | .localFinal => "LocFinalFunc"

/-- The shape of an operation with a list of operands. -/
def Variadic.valueShape (op : Variadic String) (values : List ValueTree) : ValueShape ValueTree :=
  let token := op.token.name
  match op with
  | .call kind name =>
    .titled (kind.valueWord ++ ": " ++ shortName name) token (numbered argumentPin values)
  | .virtualCall .dispatched name =>
    .titled ("VirtualFunc: " ++ name) token (numbered argumentPin values)
  | .struct _ =>
    .titled "Struct" token (numbered (fun i => "property " ++ natText (i + 1)) values)
  | .virtualCall .localScript _ | .collection .. | .map .. => .generic token values

/-- The inputs for the cases of a switch, numbered from one. -/
def caseParts (cases : List (ValueTree × ValueTree)) : List (ValuePart ValueTree) :=
  cases.zipIdx.flatMap fun ((value, result), i) =>
    [.operand ("case_" ++ natText (i + 1) ++ "_value") value,
      .operand ("case_" ++ natText (i + 1) ++ "_result") result]

/-- The shape of a switch. -/
def switchShape (token : String) (index : ValueTree) (cases : List (ValueTree × ValueTree))
    (default : ValueTree) : ValueShape ValueTree :=
  .titled "Switch" token (caseParts cases ++ [.operand "index" index, .operand "default" default])

/-- An operand as it is read by itself, and its shape if it is shown inside another node. -/
structure ValueView where
  /-- The tree of the operand. -/
  tree : ValueTree
  /-- The shape of the operand where it is merged into the node of a context access. -/
  shape : ValueShape ValueTree

/-- The view of an operand whose node has the shape of its own operation. -/
def ValueView.plain (operand : Expr String) (shape : ValueShape ValueTree) : ValueView :=
  ⟨.node operand shape, shape⟩

/-- The shape of a context access that is merged into its member: the member's, with the object as
a first input. -/
def ValueShape.owned (owner : ValueTree) (member : ValueShape ValueTree) : ValueShape ValueTree :=
  { member with parts := .operand "owner" owner :: member.parts }

mutual

/-- The view of an operand. -/
def Expr.valueView (mode : GraphMode) : Expr String → ValueView
  | .atom (.unknown opcode) => ⟨.gap opcode, (Atom.unknown opcode).valueShape⟩
  | .atom op => .plain (.atom op) op.valueShape
  | .unary op a => .plain (.unary op a) (op.valueShape a (a.valueView mode).tree)
  | .binary op a b =>
    let first := a.valueView mode
    let second := b.valueView mode
    let shape := op.valueShape a b first.tree second.tree
    match mode, op with
    | .pseudoBlueprint, .context .. =>
      ⟨.node (.binary op a b) (.owned first.tree second.shape), shape⟩
    | _, _ => .plain (.binary op a b) shape
  | .localizedText source key space =>
    .plain (.localizedText source key space) (localizedShape source key space)
  | .variadic op operands =>
    .plain (.variadic op operands) (op.valueShape (valueTrees mode operands))
  | .led op leader operands =>
    .plain (.led op leader operands)
      (.generic op.token.name ((leader.valueView mode).tree :: valueTrees mode operands))
  | .switch endOffset index cases default =>
    let whole := Expr.switch endOffset index cases default
    .plain whole (switchShape whole.tokenName (index.valueView mode).tree (caseTrees mode cases)
      (default.valueView mode).tree)

/-- The trees of a list of operands. -/
def valueTrees (mode : GraphMode) : List (Expr String) → List ValueTree
  | [] => []
  | e :: rest => (e.valueView mode).tree :: valueTrees mode rest

/-- The trees of the cases of a switch. -/
def caseTrees (mode : GraphMode) : List (SwitchCase (Expr String)) → List (ValueTree × ValueTree)
  | [] => []
  | ⟨value, _, result⟩ :: rest =>
    ((value.valueView mode).tree, (result.valueView mode).tree) :: caseTrees mode rest

end

/-- The tree of a data operand. -/
def Expr.valueTree (mode : GraphMode) (e : Expr String) : ValueTree := (e.valueView mode).tree

end ScriptFlow
