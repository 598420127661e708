import ScriptFlow.Expr.Reader
import ScriptFlow.Expr.Writer
import ScriptFlow.Symbols

/-!
Packages: symbol tables and the functions that use them, with the form in which they are written
and read. Every field of a package has a default, so the empty object is a package.
-/

namespace ScriptFlow

/-- A function of a package. -/
structure ScriptFunction where
  /-- Its name. -/
  name : String
  /-- Its instruction stream. -/
  stream : List (Expr SymbolRef)

/-- A package. -/
structure Package where
  /-- The names behind the references of its functions. -/
  symbols : SymbolTable := {}
  /-- Its functions in order. -/
  functions : List ScriptFunction := []

/-- The name of a function with its stream, every reference replaced by its name. -/
def ScriptFunction.resolved (symbols : Symbols) (function : ScriptFunction) :
    String × List (Expr String) :=
  (function.name, function.stream.map symbols.resolve)

/-- Why no function of a package is selected. -/
inductive PackageError where
  /-- No function has the name. -/
  | unknownFunction (name : String)
  /-- There is no function at all. -/
  | empty
  deriving DecidableEq

/-- The message for a selection that failed. -/
def PackageError.message : PackageError → String
  | .unknownFunction name => "Function '" ++ name ++ "' not found in package"
  | .empty => "Package contains no functions"

/-- The first function with the given name, or the first of all when no name is given. -/
def Package.select (package : Package) : Option String → Except PackageError ScriptFunction
  | some name =>
    match package.functions.find? (·.name = name) with
    | some function => .ok function
    | none => .error (.unknownFunction name)
  | none =>
    match package.functions with
    | function :: _ => .ok function
    | [] => .error .empty

/-- The reference that a key of a symbol table stands for: a whole number as it is written, without
escapes. -/
def symbolKey? (raw : List Char) : Option SymbolRef :=
  match Json.scanNumeral raw with
  | some (n, []) => (Json.number n).int32?
  | _ => none

/-- One entry of a table of symbols. -/
def symbolEntry? (member : List Char × Json) : Option (SymbolRef × String) := do
  return (← symbolKey? member.1, ← member.2.text?)

/-- One table of symbols; a repeated key keeps its place and takes the later name. -/
def symbolMap? : Json.Decoder (OrderedMap SymbolRef String) := fun room json =>
  match json, room with
  | .object members, _ + 1 => (members.mapM symbolEntry?).map .ofList
  | _, _ => none

/-- A field that may be left out. -/
def Json.optional? {α : Type} (default : α) (read : Json → Option α) : Option Json → Option α
  | none => some default
  | some json => read json

/-- The symbol tables of a package. -/
def SymbolTable.ofJson? : Json.Decoder SymbolTable := fun room json =>
  match json.fields? ["properties", "objects"] room with
  | some (room, [properties, objects]) => do
    return ⟨← Json.optional? {} (symbolMap? room) properties,
      ← Json.optional? {} (symbolMap? room) objects⟩
  | _ => none

/-- A function of a package. -/
def ScriptFunction.ofJson? : Json.Decoder ScriptFunction := fun room json =>
  (Json.record? (.more "name" (Json.scalar? Json.text?) (.one "bytecode"
    (Json.list? Expr.ofJson?))) room json).map fun (name, stream) => ⟨name, stream⟩

/-- A package. -/
def Package.ofJson? : Json.Decoder Package := fun room json =>
  match json.fields? ["symbols", "functions"] room with
  | some (room, [symbols, functions]) => do
    return ⟨← Json.optional? {} (SymbolTable.ofJson? room) symbols,
      ← Json.optional? [] (Json.list? ScriptFunction.ofJson? room) functions⟩
  | _ => none

/-- The package that a text is. -/
def Package.read? (text : String) : Option Package :=
  (Json.read? text).bind (Package.ofJson? Json.nestingLimit)

/-- One table of symbols as a document. -/
def symbolMapJson (table : OrderedMap SymbolRef String) : Json :=
  .record (table.entries.map fun (reference, name) => (intText reference.toInt, .ofText name))

/-- Symbol tables as a document. -/
def SymbolTable.toJson (table : SymbolTable) : Json :=
  .record [("properties", symbolMapJson table.properties), ("objects", symbolMapJson table.objects)]

/-- A function as a document. -/
def ScriptFunction.toJson (function : ScriptFunction) : Json :=
  .record [("name", .ofText function.name), ("bytecode", .array (toJsonAll function.stream))]

/-- A package as a document. -/
def Package.toJson (package : Package) : Json :=
  .record [("symbols", package.symbols.toJson),
    ("functions", .array (package.functions.map ScriptFunction.toJson))]

/-- A package as text. -/
def Package.text (package : Package) : String := package.toJson.compact

end ScriptFlow
