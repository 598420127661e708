import ScriptFlow.Expr.Token
import ScriptFlow.Json.Decoder

/-!
Reading expressions from a package. An operation is a variant under its tag; its payload is a
single value or a record with the fields named here, in any of the forms that records and variants
may take.
-/

namespace ScriptFlow

/-- A value of an enumeration written as a bare tag. -/
def Json.tag? {α : Type} (all : List α) (tag : α → String) : Json.Decoder α := fun room json =>
  (json.unitVariant? room).bind (Json.ofTag? all tag)

/-- A number. -/
def Json.number? : Json.Decoder Single := Json.scalar? Json.single?

def Vector3.ofJson? : Json.Decoder Vector3 := fun room json =>
  (Json.record? (.more "x" Json.number? (.more "y" Json.number? (.one "z" Json.number?))) room
    json).map fun (x, y, z) => ⟨x, y, z⟩

def Rotator.ofJson? : Json.Decoder Rotator := fun room json =>
  (Json.record? (.more "pitch" Json.number? (.more "yaw" Json.number? (.one "roll" Json.number?)))
    room json).map fun (pitch, yaw, roll) => ⟨pitch, yaw, roll⟩

def Quaternion.ofJson? : Json.Decoder Quaternion := fun room json =>
  (Json.record? (.more "x" Json.number? (.more "y" Json.number? (.more "z" Json.number?
    (.one "w" Json.number?)))) room json).map fun (x, y, z, w) => ⟨x, y, z, w⟩

def Transform.ofJson? : Json.Decoder Transform := fun room json =>
  (Json.record? (.more "rotation" Quaternion.ofJson? (.more "translation" Vector3.ofJson?
    (.one "scale" Vector3.ofJson?))) room json).map fun (rotation, displacement, scale) =>
      ⟨rotation, displacement, scale⟩

namespace Expr

/-- The operation without payload that a tag names. -/
def ofBareTag? (tag : String) : Option (Expr SymbolRef) :=
  (Json.ofTag? Marker.all (·.token.tag) tag).map fun m => .atom (.marker m)

section Step

variable (expr : Json.Decoder (Expr SymbolRef))

/-- One expression under the names of its scalar and its field. -/
def scalarAndExpr? {α : Type} (scalar : Json → Option α) (scalarName exprName : String) :
    Json.Decoder (α × Expr SymbolRef) :=
  Json.record? (.more scalarName (Json.scalar? scalar) (.one exprName expr))

/-- Two expressions under the names of their fields. -/
def exprPair? (first second : String) : Json.Decoder (Expr SymbolRef × Expr SymbolRef) :=
  Json.record? (.more first expr (.one second expr))

/-- A scalar and two expressions under the names of their fields. -/
def scalarAndPair? {α : Type} (scalar : Json → Option α) (scalarName first second : String) :
    Json.Decoder (α × Expr SymbolRef × Expr SymbolRef) :=
  Json.record? (.more scalarName (Json.scalar? scalar) (.more first expr (.one second expr)))

/-- A scalar and a list of expressions under the names of their fields. -/
def scalarAndList? {α : Type} (scalar : Json → Option α) (scalarName listName : String) :
    Json.Decoder (α × List (Expr SymbolRef)) :=
  Json.record? (.more scalarName (Json.scalar? scalar) (.one listName (Json.list? expr)))

/-- The payload of a text constant. -/
def textOfJson? (room : Nat) (json : Json) : Option (Expr SymbolRef) :=
  match json.variant? room with
  | some ("Empty", none) => some (.atom .emptyText)
  | some ("Empty", some (_, .null)) => some (.atom .emptyText)
  | some ("LocalizedText", some (room, payload)) => do
    let (source, key, space) ←
      Json.record? (.more "source" expr (.more "key" expr (.one "namespace" expr))) room payload
    return .localizedText source key space
  | some ("StringTableEntry", some (room, payload)) => do
    let (table, id, key) ← scalarAndPair? expr Json.int32? "table" "table_id" "key" room payload
    return .binary (.tableText table) id key
  | some (tag, some (room, payload)) => do
    let kind ← Json.ofTag? TextKind.all TextKind.tag tag
    return .unary (.text kind) (← expr room payload)
  | _ => none

/-- One case of a switch. -/
def caseOfJson? : Json.Decoder (SwitchCase (Expr SymbolRef)) := fun room json =>
  (Json.record? (.more "value" expr (.more "next_offset" (Json.scalar? Json.uint32?)
    (.one "result" expr))) room json).map fun (value, next, result) => ⟨value, next, result⟩

/-- An operation without operands, under a tag of its own. -/
def atomOfJson? (tag : String) (room : Nat) (payload : Json) : Option (Atom SymbolRef) :=
  match tag with
  | "PropertyConst" => payload.int32?.map .property
  | "ObjectConst" => payload.int32?.map .object
  | "Jump" => (Json.record? (.one "target" (Json.scalar? Json.uint32?)) room payload).map .jump
  | "PushExecutionFlow" =>
    (Json.record? (.one "address" (Json.scalar? Json.uint32?)) room payload).map .pushFlow
  | "SkipOffsetConst" => payload.uint32?.map .skipOffset
  | "IntConst" => payload.int32?.map .int
  | "IntConstByte" => payload.uint8?.map .intByte
  | "Int64Const" => payload.int64?.map .int64
  | "UInt64Const" => payload.uint64?.map .uint64
  | "FloatConst" => payload.single?.map .float
  | "ByteConst" => payload.uint8?.map .byte
  | "StringConst" => payload.text?.map .string
  | "UnicodeStringConst" => payload.text?.map .unicodeString
  | "NameConst" => payload.text?.map .name
  | "InstanceDelegate" => payload.text?.map .instanceDelegate
  | "VectorConst" => (Vector3.ofJson? room payload).map .vector
  | "RotationConst" => (Rotator.ofJson? room payload).map .rotation
  | "TransformConst" => (Transform.ofJson? room payload).map .transform
  | "Unknown" =>
    (Json.record? (.one "opcode" (Json.scalar? Json.uint8?)) room payload).map .unknown
  | _ => do
    let scope ← Json.ofTag? VariableScope.all (·.token.tag) tag
    return .readVariable scope (← payload.int32?)

/-- An operation with one operand, under a tag of its own. -/
def unaryOfJson? (tag : String) (room : Nat) (payload : Json) : Option (Expr SymbolRef) :=
  match tag with
  | "JumpIfNot" => do
    let (target, condition) ← scalarAndExpr? expr Json.uint32? "target" "condition" room payload
    return .unary (.jumpIfNot target) condition
  | "Skip" => do
    let (count, operand) ← scalarAndExpr? expr Json.uint32? "skip" "expr" room payload
    return .unary (.skip count) operand
  | "Assert" => do
    let (line, debugOnly, operand) ← Json.record? (.more "line" (Json.scalar? Json.uint16?)
      (.more "debug_only" (Json.scalar? Json.bool?) (.one "expr" expr))) room payload
    return .unary (.assert line debugOnly) operand
  | "LetValueOnPersistentFrame" => do
    let (property, value) ← scalarAndExpr? expr Json.int32? "property" "value" room payload
    return .unary (.letPersistent property) value
  | "StructMemberContext" => do
    let (member, struct) ← scalarAndExpr? expr Json.int32? "member" "structure" room payload
    return .unary (.structMember member) struct
  | "PrimitiveCast" => do
    let (conversion, target) ← Json.record? (.more "conversion"
      (Json.tag? Conversion.all Conversion.tag) (.one "target" expr)) room payload
    return .unary (.primitiveCast conversion) target
  | _ =>
    match Json.ofTag? Wrapper.all (·.token.tag) tag with
    | some wrapper => (expr room payload).map (.unary (.wrap wrapper))
    | none => do
      let kind ← Json.ofTag? CastKind.all (·.token.tag) tag
      let (target, operand) ← scalarAndExpr? expr Json.int32? "class" "target" room payload
      return .unary (.classCast kind target) operand

/-- An operation with two operands, under a tag of its own. -/
def binaryOfJson? (tag : String) (room : Nat) (payload : Json) : Option (Expr SymbolRef) :=
  match tag with
  | "Let" => do
    let (property, target, value) ←
      scalarAndPair? expr Json.int32? "property" "variable" "value" room payload
    return .binary (.assignProperty property) target value
  | "ArrayGetByRef" => do
    let (array, index) ← exprPair? expr "array" "index" room payload
    return .binary .arrayElement array index
  | "AddMulticastDelegate" => do
    let (delegate, added) ← exprPair? expr "delegate" "to_add" room payload
    return .binary .addDelegate delegate added
  | "RemoveMulticastDelegate" => do
    let (delegate, removed) ← exprPair? expr "delegate" "to_remove" room payload
    return .binary .removeDelegate delegate removed
  | "BindDelegate" => do
    let (function, delegate, object) ←
      scalarAndPair? expr Json.text? "function" "delegate" "object" room payload
    return .binary (.bindDelegate function) delegate object
  | _ =>
    match Json.ofTag? AssignKind.all (·.token.tag) tag with
    | some kind => do
      let (target, value) ← exprPair? expr "variable" "value" room payload
      return .binary (.assign kind) target value
    | none => do
      let kind ← Json.ofTag? ContextKind.all (·.token.tag) tag
      let (object, skip, field, member) ← Json.record? (.more "object" expr
        (.more "skip" (Json.scalar? Json.uint32?) (.more "field" (Json.scalar? Json.int32?)
          (.one "member" expr)))) room payload
      return .binary (.context kind skip field) object member

/-- An operation with a list of operands, under a tag of its own. -/
def listedOfJson? (tag : String) (room : Nat) (payload : Json) : Option (Expr SymbolRef) :=
  match tag with
  | "CallMulticastDelegate" => do
    let (target, delegate, operands) ← Json.record? (.more "target" (Json.scalar? Json.int32?)
      (.more "delegate" expr (.one "params" (Json.list? expr)))) room payload
    return .led (.callDelegate target) delegate operands
  | "StructConst" => do
    let (type, members) ← scalarAndList? expr Json.int32? "structure" "members" room payload
    return .variadic (.struct type) members
  | "MapConst" => do
    let (key, value, elements) ← Json.record? (.more "key" (Json.scalar? Json.int32?)
      (.more "value" (Json.scalar? Json.int32?) (.one "elements" (Json.list? expr)))) room payload
    return .variadic (.map key value) elements
  | "SwitchValue" => do
    let (endOffset, index, cases, default) ← Json.record? (.more "end_offset"
      (Json.scalar? Json.uint32?) (.more "index" expr (.more "cases"
        (Json.list? (caseOfJson? expr)) (.one "default" expr)))) room payload
    return .switch endOffset index cases default
  | _ =>
    match Json.ofTag? CallKind.all (·.token.tag) tag, Json.ofTag? VirtualKind.all (·.token.tag) tag,
      Json.ofTag? CollectionKind.all (·.token.tag) tag with
    | some kind, _, _ => do
      let (target, operands) ← scalarAndList? expr Json.int32? "target" "params" room payload
      return .variadic (.call kind target) operands
    | _, some kind, _ => do
      let (name, operands) ← scalarAndList? expr Json.text? "name" "params" room payload
      return .variadic (.virtualCall kind name) operands
    | _, _, some kind => do
      let (inner, elements) ← scalarAndList? expr Json.int32? "inner" "elements" room payload
      return .variadic (.collection kind inner) elements
    | none, none, none => do
      let kind ← Json.ofTag? ContainerKind.all (·.token.tag) tag
      let (property, elements) ←
        Json.record? (.more "property" expr (.one "elements" (Json.list? expr))) room payload
      return .led (.assignContainer kind) property elements

/-- An operation with a payload. Tags are unique, so at most one reader answers. -/
def payloadOfJson? (tag : String) (room : Nat) (payload : Json) : Option (Expr SymbolRef) :=
  if tag = textToken.tag then textOfJson? expr room payload
  else
    ((atomOfJson? tag room payload).map .atom) <|> unaryOfJson? expr tag room payload <|>
      binaryOfJson? expr tag room payload <|> listedOfJson? expr tag room payload

/-- One expression, given how its operands are read. -/
def step? : Json.Decoder (Expr SymbolRef) := fun room json =>
  match json.variant? room with
  | some (tag, none) => ofBareTag? tag
  | some (tag, some (room, payload)) =>
    match ofBareTag? tag with
    | some e => match payload with
      | .null => some e
      | _ => none
    | none => payloadOfJson? expr tag room payload
  | none => none

end Step

/-- Expressions of at most the given number of levels. An operand stands inside at least one
bracket more than its operation, so no document within the nesting limit has more levels than
that. -/
def levels? : Nat → Json.Decoder (Expr SymbolRef)
  | 0 => fun _ _ => none
  | level + 1 => step? (levels? level)

/-- An expression. -/
def ofJson? : Json.Decoder (Expr SymbolRef) := fun room json => levels? (room + 1) room json

end Expr

end ScriptFlow
