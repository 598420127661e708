import ScriptFlow.Expr.Token
import ScriptFlow.Json.Writer

/-!
Writing expressions into a package: records as objects with their fields in order, and operations
without payload as bare tags.
-/

namespace ScriptFlow

def Vector3.toJson (v : Vector3) : Json :=
  .record [("x", .ofSingle v.x), ("y", .ofSingle v.y), ("z", .ofSingle v.z)]

def Rotator.toJson (r : Rotator) : Json :=
  .record [("pitch", .ofSingle r.pitch), ("yaw", .ofSingle r.yaw), ("roll", .ofSingle r.roll)]

def Quaternion.toJson (q : Quaternion) : Json :=
  .record [("x", .ofSingle q.x), ("y", .ofSingle q.y), ("z", .ofSingle q.z), ("w", .ofSingle q.w)]

def Transform.toJson (t : Transform) : Json :=
  .record [("rotation", t.rotation.toJson), ("translation", t.displacement.toJson),
    ("scale", t.scale.toJson)]

/-- The payload of an operation without operands; nothing for a bare tag. -/
def Atom.payload? : Atom SymbolRef → Option Json
  | .readVariable _ p => some (.ofInt p.toInt)
  | .property p => some (.ofInt p.toInt)
  | .object o => some (.ofInt o.toInt)
  | .jump target => some (.record [("target", .ofNat target.toNat)])
  | .pushFlow address => some (.record [("address", .ofNat address.toNat)])
  | .skipOffset offset => some (.ofNat offset.toNat)
  | .marker _ => none
  | .int n => some (.ofInt n.toInt)
  | .intByte n => some (.ofNat n.toNat)
  | .int64 n => some (.ofInt n.toInt)
  | .uint64 n => some (.ofNat n.toNat)
  | .float x => some (.ofSingle x)
  | .byte n => some (.ofNat n.toNat)
  | .string text => some (.ofText text)
  | .unicodeString text => some (.ofText text)
  | .name text => some (.ofText text)
  | .instanceDelegate text => some (.ofText text)
  | .vector v => some v.toJson
  | .rotation r => some r.toJson
  | .transform t => some t.toJson
  | .emptyText => some (.ofText "Empty")
  | .unknown opcode => some (.record [("opcode", .ofNat opcode.toNat)])

/-- The payload of an operation with one operand, which is already written. -/
def Unary.payload (operand : Json) : Unary SymbolRef → Json
  | .wrap _ => operand
  | .jumpIfNot target => .record [("target", .ofNat target.toNat), ("condition", operand)]
  | .skip count => .record [("skip", .ofNat count.toNat), ("expr", operand)]
  | .assert line debugOnly =>
    .record [("line", .ofNat line.toNat), ("debug_only", .bool debugOnly), ("expr", operand)]
  | .letPersistent p => .record [("property", .ofInt p.toInt), ("value", operand)]
  | .structMember p => .record [("member", .ofInt p.toInt), ("structure", operand)]
  | .primitiveCast conversion =>
    .record [("conversion", .ofText conversion.tag), ("target", operand)]
  | .classCast _ o => .record [("class", .ofInt o.toInt), ("target", operand)]
  | .text kind => .record [(kind.tag, operand)]

/-- The payload of an operation with two operands, which are already written. -/
def Binary.payload (first second : Json) : Binary SymbolRef → Json
  | .assignProperty p =>
    .record [("property", .ofInt p.toInt), ("variable", first), ("value", second)]
  | .assign _ => .record [("variable", first), ("value", second)]
  | .arrayElement => .record [("array", first), ("index", second)]
  | .addDelegate => .record [("delegate", first), ("to_add", second)]
  | .removeDelegate => .record [("delegate", first), ("to_remove", second)]
  | .bindDelegate function =>
    .record [("function", .ofText function), ("delegate", first), ("object", second)]
  | .context _ skip field =>
    .record [("object", first), ("skip", .ofNat skip.toNat), ("field", .ofInt field.toInt),
      ("member", second)]
  | .tableText o =>
    .record [("StringTableEntry",
      .record [("table", .ofInt o.toInt), ("table_id", first), ("key", second)])]

/-- The payload of an operation with a list of operands, which are already written. -/
def Variadic.payload (operands : List Json) : Variadic SymbolRef → Json
  | .call _ o => .record [("target", .ofInt o.toInt), ("params", .array operands)]
  | .virtualCall _ name => .record [("name", .ofText name), ("params", .array operands)]
  | .struct o => .record [("structure", .ofInt o.toInt), ("members", .array operands)]
  | .collection _ p => .record [("inner", .ofInt p.toInt), ("elements", .array operands)]
  | .map key value =>
    .record [("key", .ofInt key.toInt), ("value", .ofInt value.toInt),
      ("elements", .array operands)]

/-- The payload of an operation with a leading operand, all operands being already written. -/
def Led.payload (leader : Json) (operands : List Json) : Led SymbolRef → Json
  | .assignContainer _ => .record [("property", leader), ("elements", .array operands)]
  | .callDelegate o =>
    .record [("target", .ofInt o.toInt), ("delegate", leader), ("params", .array operands)]

mutual

/-- An expression as a document. -/
def Expr.toJson : Expr SymbolRef → Json
  | .atom op =>
    match op.payload? with
    | none => .ofText op.token.tag
    | some payload => .record [(op.token.tag, payload)]
  | .unary op a => .record [(op.token.tag, op.payload a.toJson)]
  | .binary op a b => .record [(op.token.tag, op.payload a.toJson b.toJson)]
  | .localizedText source key space =>
    .record [(textToken.tag, .record [("LocalizedText",
      .record [("source", source.toJson), ("key", key.toJson), ("namespace", space.toJson)])])]
  | .variadic op operands => .record [(op.token.tag, op.payload (toJsonAll operands))]
  | .led op leader operands =>
    .record [(op.token.tag, op.payload leader.toJson (toJsonAll operands))]
  | .switch endOffset index cases default =>
    .record [("SwitchValue", .record [("end_offset", .ofNat endOffset.toNat),
      ("index", index.toJson), ("cases", .array (toJsonCases cases)),
      ("default", default.toJson)])]

/-- Expressions as documents. -/
def toJsonAll : List (Expr SymbolRef) → List Json
  | [] => []
  | e :: rest => e.toJson :: toJsonAll rest

/-- The cases of a switch as documents. -/
def toJsonCases : List (SwitchCase (Expr SymbolRef)) → List Json
  | [] => []
  | ⟨value, nextOffset, result⟩ :: rest =>
    .record [("value", value.toJson), ("next_offset", .ofNat nextOffset.toNat),
      ("result", result.toJson)] :: toJsonCases rest

end

end ScriptFlow
