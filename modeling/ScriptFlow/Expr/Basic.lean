import ScriptFlow.Number.Single

/-!
Script expressions. A script is a stream of expressions, and an expression is an operation applied
to operands, which are expressions again. Operations are sorted by the number of operands they
take, so that a traversal has one case for each number and not one for each operation; everything
an operation carries besides its operands is part of the operation.

The type of references is a parameter. A script as it is stored refers to properties and objects by
index (`Expr SymbolRef`); once a symbol table has been consulted it refers to them by name
(`Expr String`).
-/

namespace ScriptFlow

/-- An index into the property table or the object table of a package. -/
abbrev SymbolRef := Int32

/-- A point or direction in space. -/
structure Vector3 where
  x : Single
  y : Single
  z : Single
  deriving DecidableEq

/-- A rotation by three angles. -/
structure Rotator where
  pitch : Single
  yaw : Single
  roll : Single
  deriving DecidableEq

/-- A rotation by a unit quaternion. -/
structure Quaternion where
  x : Single
  y : Single
  z : Single
  w : Single
  deriving DecidableEq

/-- A rotation, a displacement and a scale. -/
structure Transform where
  rotation : Quaternion
  displacement : Vector3
  scale : Vector3
  deriving DecidableEq

/-- Where a variable lives. -/
inductive VariableScope where
  | localFrame
  | instanceMember
  | classDefault
  | localOut
  | sparseData
  deriving DecidableEq

/-- An operation that is nothing but its token. -/
inductive Marker where
  | popFlow
  | nothing
  | endOfScript
  | tracepoint
  | wireTracepoint
  | breakpoint
  | selfObject
  | true
  | false
  | intZero
  | intOne
  | noObject
  | noInterface
  deriving DecidableEq

/-- An operation that takes one operand and carries nothing else. -/
inductive Wrapper where
  | returnValue
  | computedJump
  | popFlowIfNot
  | interfaceContext
  | clearDelegate
  | softObject
  | fieldPath
  deriving DecidableEq

/-- The conversion of a primitive cast. -/
inductive Conversion where
  | objectToInterface
  | objectToBool
  | interfaceToBool
  | doubleToFloat
  | floatToDouble
  deriving DecidableEq

/-- The kind of a cast to a class. -/
inductive CastKind where
  | dynamic
  | metaClass
  | objectToInterface
  | crossInterface
  | interfaceToObject
  deriving DecidableEq

/-- The kind of an assignment whose property is implied by its variable. -/
inductive AssignKind where
  | object
  | bool
  | weakObject
  | delegate
  | multicastDelegate
  deriving DecidableEq

/-- The kind of a container that is assigned element by element. -/
inductive ContainerKind where
  | array
  | set
  | map
  deriving DecidableEq

/-- The kind of an access to a member of another object. -/
inductive ContextKind where
  | plain
  | failSilent
  | ofClass
  deriving DecidableEq

/-- The kind of a call to a function identified by reference. -/
inductive CallKind where
  | math
  | final
  | localFinal
  deriving DecidableEq

/-- The kind of a call to a function identified by name. -/
inductive VirtualKind where
  | dispatched
  | localScript
  deriving DecidableEq

/-- The kind of a collection constant. -/
inductive CollectionKind where
  | array
  | set
  deriving DecidableEq

/-- The kind of a text constant made from one string. -/
inductive TextKind where
  | invariant
  | literal
  deriving DecidableEq

/-- An operation without operands. -/
inductive Atom (ρ : Type) where
  /-- The value of a variable. -/
  | readVariable (scope : VariableScope) (property : ρ)
  /-- A property as a value. -/
  | property (property : ρ)
  /-- An object as a value. -/
  | object (object : ρ)
  /-- Continue at an offset. -/
  | jump (target : UInt32)
  /-- Remember an offset to continue at later. -/
  | pushFlow (address : UInt32)
  /-- An offset as a value. -/
  | skipOffset (offset : UInt32)
  /-- A bare token. -/
  | marker (marker : Marker)
  | int (value : Int32)
  | intByte (value : UInt8)
  | int64 (value : Int64)
  | uint64 (value : UInt64)
  | float (value : Single)
  | byte (value : UInt8)
  /-- A string of single-byte characters. -/
  | string (text : String)
  /-- A string of sixteen-bit code units. -/
  | unicodeString (text : String)
  | name (name : String)
  /-- A function name as a delegate value. -/
  | instanceDelegate (name : String)
  | vector (value : Vector3)
  | rotation (value : Rotator)
  | transform (value : Transform)
  /-- The text constant without content. -/
  | emptyText
  /-- A token that no operation has. -/
  | unknown (opcode : UInt8)
  deriving DecidableEq

/-- An operation with one operand. -/
inductive Unary (ρ : Type) where
  | wrap (wrapper : Wrapper)
  /-- Continue at an offset unless the operand holds. -/
  | jumpIfNot (target : UInt32)
  /-- Evaluate the operand unless a number of bytes is skipped. -/
  | skip (count : UInt32)
  | assert (line : UInt16) (debugOnly : Bool)
  /-- Assign to a property of the persistent frame. -/
  | letPersistent (property : ρ)
  /-- Read a member of the operand. -/
  | structMember (member : ρ)
  | primitiveCast (conversion : Conversion)
  | classCast (kind : CastKind) (target : ρ)
  | text (kind : TextKind)
  deriving DecidableEq

/-- An operation with two operands. -/
inductive Binary (ρ : Type) where
  /-- Assign to a variable of a named property. -/
  | assignProperty (property : ρ)
  | assign (kind : AssignKind)
  | arrayElement
  | addDelegate
  | removeDelegate
  | bindDelegate (function : String)
  /-- Access the second operand as a member of the first. The number of bytes to skip and the
  receiving property matter only when the object is missing. -/
  | context (kind : ContextKind) (skip : UInt32) (field : ρ)
  /-- A text looked up in a string table. -/
  | tableText (table : ρ)
  deriving DecidableEq

/-- An operation with any number of operands. -/
inductive Variadic (ρ : Type) where
  | call (kind : CallKind) (target : ρ)
  | virtualCall (kind : VirtualKind) (name : String)
  | struct (type : ρ)
  | collection (kind : CollectionKind) (inner : ρ)
  | map (key value : ρ)
  deriving DecidableEq

/-- An operation with one leading operand and any number of further ones. -/
inductive Led (ρ : Type) where
  | assignContainer (kind : ContainerKind)
  | callDelegate (target : ρ)
  deriving DecidableEq

/-- One case of a switch. -/
structure SwitchCase (ε : Type) where
  /-- The value that selects the case. -/
  value : ε
  /-- Offset of the next case; it is recorded and not interpreted. -/
  nextOffset : UInt32
  /-- The result of the case. -/
  result : ε

/-- A script expression. -/
inductive Expr (ρ : Type) where
  | atom (op : Atom ρ)
  | unary (op : Unary ρ) (operand : Expr ρ)
  | binary (op : Binary ρ) (first second : Expr ρ)
  /-- A text constant with its source, its key and its name space. -/
  | localizedText (source key space : Expr ρ)
  | variadic (op : Variadic ρ) (operands : List (Expr ρ))
  | led (op : Led ρ) (leader : Expr ρ) (operands : List (Expr ρ))
  /-- A choice among cases by the value of `index`. -/
  | switch (endOffset : UInt32) (index : Expr ρ) (cases : List (SwitchCase (Expr ρ)))
      (default : Expr ρ)

/-- The object and the member of a context access. -/
def Expr.context? {ρ : Type} : Expr ρ → Option (Expr ρ × Expr ρ)
  | .binary (.context ..) object member => some (object, member)
  | _ => none

/-- The opcode of an expression that is an unknown token. -/
def Expr.unknown? {ρ : Type} : Expr ρ → Option UInt8
  | .atom (.unknown opcode) => some opcode
  | _ => none

end ScriptFlow
