import ScriptFlow.Expr.Basic

/-!
The token of an operation: its tag in a package, its engine name and its opcode. This is the one
table of names; whatever prints or reads the name of an operation consults it.
-/

namespace ScriptFlow

/-- How an operation is identified. -/
structure Token where
  /-- The name under which a package writes the operation. -/
  tag : String
  /-- The engine's name of the operation. -/
  name : String
  /-- The byte that starts its encoding. -/
  opcode : UInt8

/-- A token whose engine name is its tag with the customary `EX_` in front. -/
def Token.plain (tag : String) (opcode : UInt8) : Token := ⟨tag, "EX_" ++ tag, opcode⟩

def VariableScope.token : VariableScope → Token
  | .localFrame => .plain "LocalVariable" 0x00
  | .instanceMember => .plain "InstanceVariable" 0x01
  | .classDefault => .plain "DefaultVariable" 0x02
  | .localOut => .plain "LocalOutVariable" 0x48
  | .sparseData => .plain "ClassSparseDataVariable" 0x6C

def VariableScope.all : List VariableScope :=
  [.localFrame, .instanceMember, .classDefault, .localOut, .sparseData]

def Marker.token : Marker → Token
  | .popFlow => .plain "PopExecutionFlow" 0x4D
  | .nothing => .plain "Nothing" 0x0B
  | .endOfScript => .plain "EndOfScript" 0x53
  | .tracepoint => .plain "Tracepoint" 0x5E
  | .wireTracepoint => .plain "WireTracepoint" 0x5A
  | .breakpoint => .plain "Breakpoint" 0x50
  | .selfObject => ⟨"SelfRef", "EX_Self", 0x17⟩
  | .true => .plain "True" 0x27
  | .false => .plain "False" 0x28
  | .intZero => .plain "IntZero" 0x25
  | .intOne => .plain "IntOne" 0x26
  | .noObject => .plain "NoObject" 0x2A
  | .noInterface => .plain "NoInterface" 0x2D

def Marker.all : List Marker :=
  [.popFlow, .nothing, .endOfScript, .tracepoint, .wireTracepoint, .breakpoint, .selfObject, .true,
    .false, .intZero, .intOne, .noObject, .noInterface]

def Wrapper.token : Wrapper → Token
  | .returnValue => .plain "Return" 0x04
  | .computedJump => .plain "ComputedJump" 0x4E
  | .popFlowIfNot => .plain "PopExecutionFlowIfNot" 0x4F
  | .interfaceContext => .plain "InterfaceContext" 0x51
  | .clearDelegate => .plain "ClearMulticastDelegate" 0x5D
  | .softObject => .plain "SoftObjectConst" 0x67
  | .fieldPath => .plain "FieldPathConst" 0x6D

def Wrapper.all : List Wrapper :=
  [.returnValue, .computedJump, .popFlowIfNot, .interfaceContext, .clearDelegate, .softObject,
    .fieldPath]

def CastKind.token : CastKind → Token
  | .dynamic => .plain "DynamicCast" 0x2E
  | .metaClass => .plain "MetaCast" 0x13
  | .objectToInterface => .plain "ObjToInterfaceCast" 0x52
  | .crossInterface => .plain "CrossInterfaceCast" 0x54
  | .interfaceToObject => .plain "InterfaceToObjCast" 0x55

def CastKind.all : List CastKind :=
  [.dynamic, .metaClass, .objectToInterface, .crossInterface, .interfaceToObject]

def AssignKind.token : AssignKind → Token
  | .object => .plain "LetObj" 0x5F
  | .bool => .plain "LetBool" 0x14
  | .weakObject => .plain "LetWeakObjPtr" 0x60
  | .delegate => .plain "LetDelegate" 0x44
  | .multicastDelegate => .plain "LetMulticastDelegate" 0x43

def AssignKind.all : List AssignKind :=
  [.object, .bool, .weakObject, .delegate, .multicastDelegate]

def ContainerKind.token : ContainerKind → Token
  | .array => .plain "SetArray" 0x31
  | .set => .plain "SetSet" 0x39
  | .map => .plain "SetMap" 0x3B

def ContainerKind.all : List ContainerKind := [.array, .set, .map]

def ContextKind.token : ContextKind → Token
  | .plain => .plain "Context" 0x19
  | .failSilent => ⟨"ContextFailSilent", "EX_Context_FailSilent", 0x1A⟩
  | .ofClass => .plain "ClassContext" 0x12

def ContextKind.all : List ContextKind := [.plain, .failSilent, .ofClass]

def CallKind.token : CallKind → Token
  | .math => .plain "CallMath" 0x68
  | .final => .plain "FinalFunction" 0x1C
  | .localFinal => .plain "LocalFinalFunction" 0x46

def CallKind.all : List CallKind := [.math, .final, .localFinal]

def VirtualKind.token : VirtualKind → Token
  | .dispatched => .plain "VirtualFunction" 0x1B
  | .localScript => .plain "LocalVirtualFunction" 0x45

def VirtualKind.all : List VirtualKind := [.dispatched, .localScript]

def CollectionKind.token : CollectionKind → Token
  | .array => .plain "ArrayConst" 0x65
  | .set => .plain "SetConst" 0x3D

def CollectionKind.all : List CollectionKind := [.array, .set]

/-- The token of every text constant. -/
def textToken : Token := .plain "TextConst" 0x29

variable {ρ : Type}

def Atom.token : Atom ρ → Token
  | .readVariable scope _ => scope.token
  | .property _ => .plain "PropertyConst" 0x33
  | .object _ => .plain "ObjectConst" 0x20
  | .jump _ => .plain "Jump" 0x06
  | .pushFlow _ => .plain "PushExecutionFlow" 0x4C
  | .skipOffset _ => .plain "SkipOffsetConst" 0x5B
  | .marker m => m.token
  | .int _ => .plain "IntConst" 0x1D
  | .intByte _ => .plain "IntConstByte" 0x2C
  | .int64 _ => .plain "Int64Const" 0x35
  | .uint64 _ => .plain "UInt64Const" 0x36
  | .float _ => .plain "FloatConst" 0x1E
  | .byte _ => .plain "ByteConst" 0x24
  | .string _ => .plain "StringConst" 0x1F
  | .unicodeString _ => .plain "UnicodeStringConst" 0x34
  | .name _ => .plain "NameConst" 0x21
  | .instanceDelegate _ => .plain "InstanceDelegate" 0x4B
  | .vector _ => .plain "VectorConst" 0x23
  | .rotation _ => .plain "RotationConst" 0x22
  | .transform _ => .plain "TransformConst" 0x2B
  | .emptyText => textToken
  | .unknown opcode => .plain "Unknown" opcode

def Unary.token : Unary ρ → Token
  | .wrap wrapper => wrapper.token
  | .jumpIfNot _ => .plain "JumpIfNot" 0x07
  | .skip _ => .plain "Skip" 0x18
  | .assert .. => .plain "Assert" 0x09
  | .letPersistent _ => .plain "LetValueOnPersistentFrame" 0x64
  | .structMember _ => .plain "StructMemberContext" 0x42
  | .primitiveCast _ => .plain "PrimitiveCast" 0x38
  | .classCast kind _ => kind.token
  | .text _ => textToken

def Binary.token : Binary ρ → Token
  | .assignProperty _ => .plain "Let" 0x0F
  | .assign kind => kind.token
  | .arrayElement => .plain "ArrayGetByRef" 0x6B
  | .addDelegate => .plain "AddMulticastDelegate" 0x5C
  | .removeDelegate => .plain "RemoveMulticastDelegate" 0x62
  | .bindDelegate _ => .plain "BindDelegate" 0x61
  | .context kind .. => kind.token
  | .tableText _ => textToken

def Variadic.token : Variadic ρ → Token
  | .call kind _ => kind.token
  | .virtualCall kind _ => kind.token
  | .struct _ => .plain "StructConst" 0x2F
  | .collection kind _ => kind.token
  | .map .. => .plain "MapConst" 0x3F

def Led.token : Led ρ → Token
  | .assignContainer kind => kind.token
  | .callDelegate _ => .plain "CallMulticastDelegate" 0x63

/-- The token that an expression starts with. -/
def Expr.token : Expr ρ → Token
  | .atom op => op.token
  | .unary op _ => op.token
  | .binary op _ _ => op.token
  | .localizedText .. => textToken
  | .variadic op _ => op.token
  | .led op _ _ => op.token
  | .switch .. => .plain "SwitchValue" 0x69

/-- The engine's name of the token that an expression starts with. -/
def Expr.tokenName (e : Expr ρ) : String := e.token.name

/-- The tag of a conversion. -/
def Conversion.tag : Conversion → String
  | .objectToInterface => "ObjectToInterface"
  | .objectToBool => "ObjectToBool"
  | .interfaceToBool => "InterfaceToBool"
  | .doubleToFloat => "DoubleToFloat"
  | .floatToDouble => "FloatToDouble"

def Conversion.all : List Conversion :=
  [.objectToInterface, .objectToBool, .interfaceToBool, .doubleToFloat, .floatToDouble]

/-- The tag of a text constant made from one string. -/
def TextKind.tag : TextKind → String
  | .invariant => "InvariantText"
  | .literal => "LiteralString"

def TextKind.all : List TextKind := [.invariant, .literal]

/-- How a conversion is described to a reader. -/
def Conversion.describe : Conversion → String
  | .objectToInterface => "Object To Interface"
  | .objectToBool => "Object To Bool"
  | .interfaceToBool => "Interface To Bool"
  | .doubleToFloat => "Double To Float"
  | .floatToDouble => "Float To Double"

end ScriptFlow
