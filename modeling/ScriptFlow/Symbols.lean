import ScriptFlow.Collection.OrderedMap
import ScriptFlow.Expr.Basic
import ScriptFlow.Number.Numeral

/-!
Symbols: the qualified names behind the references of a script. Properties and objects are named
by two separate tables, and two references with the same name mean the same thing.
-/

namespace ScriptFlow

/-- A way to name references. -/
structure Symbols where
  /-- The qualified name of a property: a variable, a struct member or an element type. -/
  property : SymbolRef → String
  /-- The qualified name of an object: a call target, a class or an object. -/
  object : SymbolRef → String

/-- The symbol tables of a package. -/
structure SymbolTable where
  /-- Qualified names of properties by index. -/
  properties : OrderedMap SymbolRef String := {}
  /-- Qualified names of objects by index. -/
  objects : OrderedMap SymbolRef String := {}

/-- The name under which a table lists a reference; one that is not listed is named by its index
after a question mark. -/
def nameIn (table : OrderedMap SymbolRef String) (reference : SymbolRef) : String :=
  match table.get? reference with
  | some name => name
  | none => "?" ++ intText reference.toInt

/-- The names that symbol tables give. -/
def SymbolTable.symbols (table : SymbolTable) : Symbols where
  property := nameIn table.properties
  object := nameIn table.objects

/-- The part of a qualified name after its last dot. -/
def shortName (qualified : String) : String :=
  String.ofList (qualified.toList.reverse.takeWhile (· ≠ '.')).reverse

section MapRefs

variable {ρ σ : Type} (property object : ρ → σ)

/-- The operation with its references replaced. -/
def Atom.mapRefs : Atom ρ → Atom σ
  | .readVariable scope p => .readVariable scope (property p)
  | .property p => .property (property p)
  | .object o => .object (object o)
  | .jump target => .jump target
  | .pushFlow address => .pushFlow address
  | .skipOffset offset => .skipOffset offset
  | .marker m => .marker m
  | .int n => .int n
  | .intByte n => .intByte n
  | .int64 n => .int64 n
  | .uint64 n => .uint64 n
  | .float x => .float x
  | .byte n => .byte n
  | .string text => .string text
  | .unicodeString text => .unicodeString text
  | .name text => .name text
  | .instanceDelegate text => .instanceDelegate text
  | .vector v => .vector v
  | .rotation r => .rotation r
  | .transform t => .transform t
  | .emptyText => .emptyText
  | .unknown opcode => .unknown opcode

@[inherit_doc Atom.mapRefs]
def Unary.mapRefs : Unary ρ → Unary σ
  | .wrap wrapper => .wrap wrapper
  | .jumpIfNot target => .jumpIfNot target
  | .skip count => .skip count
  | .assert line debugOnly => .assert line debugOnly
  | .letPersistent p => .letPersistent (property p)
  | .structMember p => .structMember (property p)
  | .primitiveCast conversion => .primitiveCast conversion
  | .classCast kind o => .classCast kind (object o)
  | .text kind => .text kind

@[inherit_doc Atom.mapRefs]
def Binary.mapRefs : Binary ρ → Binary σ
  | .assignProperty p => .assignProperty (property p)
  | .assign kind => .assign kind
  | .arrayElement => .arrayElement
  | .addDelegate => .addDelegate
  | .removeDelegate => .removeDelegate
  | .bindDelegate function => .bindDelegate function
  | .context kind skip field => .context kind skip (property field)
  | .tableText o => .tableText (object o)

@[inherit_doc Atom.mapRefs]
def Variadic.mapRefs : Variadic ρ → Variadic σ
  | .call kind o => .call kind (object o)
  | .virtualCall kind name => .virtualCall kind name
  | .struct o => .struct (object o)
  | .collection kind p => .collection kind (property p)
  | .map key value => .map (property key) (property value)

@[inherit_doc Atom.mapRefs]
def Led.mapRefs : Led ρ → Led σ
  | .assignContainer kind => .assignContainer kind
  | .callDelegate o => .callDelegate (object o)

mutual

/-- The expression with its references replaced. -/
def Expr.mapRefs : Expr ρ → Expr σ
  | .atom op => .atom (op.mapRefs property object)
  | .unary op a => .unary (op.mapRefs property object) (Expr.mapRefs a)
  | .binary op a b => .binary (op.mapRefs property object) (Expr.mapRefs a) (Expr.mapRefs b)
  | .localizedText source key space =>
    .localizedText (Expr.mapRefs source) (Expr.mapRefs key) (Expr.mapRefs space)
  | .variadic op operands => .variadic (op.mapRefs property object) (mapRefsAll operands)
  | .led op leader operands =>
    .led (op.mapRefs object) (Expr.mapRefs leader) (mapRefsAll operands)
  | .switch endOffset index cases default =>
    .switch endOffset (Expr.mapRefs index) (mapRefsCases cases) (Expr.mapRefs default)

/-- The expressions with their references replaced. -/
def mapRefsAll : List (Expr ρ) → List (Expr σ)
  | [] => []
  | e :: rest => Expr.mapRefs e :: mapRefsAll rest

/-- The cases with their references replaced. -/
def mapRefsCases : List (SwitchCase (Expr ρ)) → List (SwitchCase (Expr σ))
  | [] => []
  | ⟨value, nextOffset, result⟩ :: rest =>
    ⟨Expr.mapRefs value, nextOffset, Expr.mapRefs result⟩ :: mapRefsCases rest

end

end MapRefs

/-- The expression with every reference replaced by its name. -/
def Symbols.resolve (symbols : Symbols) (e : Expr SymbolRef) : Expr String :=
  e.mapRefs symbols.property symbols.object

end ScriptFlow
