import ScriptFlow.Graph.Basic
import ScriptFlow.Graph.Diagnostic
import ScriptFlow.Graph.ValueTree
import ScriptFlow.Settings.Basic
import ScriptFlow.Symbols

/-!
Execution shapes: what the node of an instruction looks like. The shape lists, in order, the pin at
which execution enters, the outputs with the offsets at which they continue, and the data inputs.
-/

namespace ScriptFlow

/-- One thing that an instruction node gets, in the order in which it gets them. -/
inductive ExecPart where
  /-- The pin at which execution enters. -/
  | enter
  /-- An output that continues with the next instruction. -/
  | next (pin : String)
  /-- An output that continues at an offset. -/
  | jump (pin : String) (target : Nat)
  /-- An input fed by a value. -/
  | input (pin : String) (operand : Expr String)
  /-- The remark that a latent call does not say where it resumes. -/
  | malformedLatent (function : String)

/-- What an instruction node consists of. -/
structure ExecShape where
  /-- The title, if the operation has a shape of its own. -/
  title : Option String
  /-- What the node gets. -/
  parts : List ExecPart

/-- The shape of an instruction that is followed by the next one. -/
def ExecShape.sequential (title : String) (parts : List ExecPart) : ExecShape :=
  ⟨some title, .enter :: .next thenPin :: parts⟩

/-- The shape of an instruction without a rule of its own. -/
def ExecShape.generic : ExecShape := ⟨none, [.enter, .next thenPin]⟩

/-- Where a latent call resumes: the offset stored as the first member of the struct passed as its
third argument. -/
def resumeOffset? : List (Expr String) → Option Nat
  | _ :: _ :: .variadic (.struct _) (.atom (.skipOffset offset) :: _) :: _ => some offset.toNat
  | _ => none

/-- The parts of a call: its arguments and, for a latent function, the output at which it
resumes. -/
def callParts (settings : DecodeSettings) (function : String) (arguments : List (Expr String)) :
    List ExecPart :=
  let inputs := arguments.zipIdx.map fun (argument, i) => .input (argumentPin i) argument
  if settings.isLatent function then
    match resumeOffset? arguments with
    | some offset => inputs ++ [.jump "later" offset]
    | none => inputs ++ [.malformedLatent function]
  else inputs

/-- The title of an assignment. -/
def AssignKind.title : AssignKind → String
  | .object => "Set Obj"
  | .bool => "Set Bool"
  | .weakObject => "Set WeakObj"
  | .delegate => "Set Delegate"
  | .multicastDelegate => "Set MulticastDelegate"

/-- The title of an assignment to a container. -/
def ContainerKind.title : ContainerKind → String
  | .array => "Set Array"
  | .set => "Set Set"
  | .map => "Set Map"

/-- The shape of an instruction by itself. -/
def Expr.execShape (settings : DecodeSettings) : Expr String → ExecShape
  | .atom (.marker .endOfScript) => ⟨some "End of Script", [.enter]⟩
  | .atom (.marker .popFlow) => ⟨some "Pop Execution", [.enter]⟩
  | .atom (.jump target) => ⟨some "Jump", [.enter, .jump thenPin target.toNat]⟩
  | .atom (.pushFlow address) =>
    ⟨some "Push Execution", [.enter, .next "first", .jump thenPin address.toNat]⟩
  | .unary (.wrap .returnValue) _ => ⟨some "Return", [.enter]⟩
  | .unary (.wrap .computedJump) target => ⟨some "Computed Jump", [.enter, .input "offset" target]⟩
  | .unary (.wrap .popFlowIfNot) condition =>
    .sequential "Pop Execution If False" [.input "condition" condition]
  | .unary (.wrap .clearDelegate) delegate =>
    .sequential "Clear MulticastDelegate" [.input "MulticastDelegate" delegate]
  | .unary (.jumpIfNot target) condition =>
    ⟨some "Branch",
      [.enter, .next "true", .jump "false" target.toNat, .input "condition" condition]⟩
  | .unary (.letPersistent property) value =>
    .sequential ("LetValueOnPersistentFrame - " ++ shortName property) [.input "value" value]
  | .binary (.assignProperty _) target value =>
    .sequential "Set Value" [.input "variable" target, .input "value" value]
  | .binary (.assign kind) target value =>
    .sequential kind.title [.input "variable" target, .input "value" value]
  | .binary (.context ..) object member =>
    .sequential "Context" [.input "object" object, .input "member" member]
  | .binary .addDelegate delegate added =>
    .sequential "Add MulticastDelegate"
      [.input "MulticastDelegate" delegate, .input "Delegate" added]
  | .binary .removeDelegate delegate removed =>
    .sequential "Remove MulticastDelegate"
      [.input "MulticastDelegate" delegate, .input "Delegate" removed]
  | .binary (.bindDelegate function) delegate object =>
    .sequential ("Bind Delegate: " ++ function)
      [.input "Delegate" delegate, .input "Object" object]
  | .led (.assignContainer kind) container elements =>
    .sequential kind.title (.input "variable" container ::
      elements.zipIdx.map fun (element, i) => .input ("element " ++ natText i) element)
  | .variadic (.call kind target) arguments =>
    .sequential (kind.token.tag ++ " - " ++ shortName target)
      (callParts settings (shortName target) arguments)
  | .variadic (.virtualCall kind name) arguments =>
    .sequential (kind.token.tag ++ " - " ++ name) (callParts settings name arguments)
  | .atom _ | .unary .. | .binary .. | .localizedText .. | .variadic .. | .led .. | .switch .. =>
    .generic

/-- The instruction whose shape is shown: the member of a context access that is merged into it,
or the instruction itself. -/
def Expr.shown (mode : GraphMode) (e : Expr String) : Expr String :=
  match mode, e.context? with
  | .pseudoBlueprint, some (_, member) => member
  | _, _ => e

/-- The parts of an instruction node. A merged context access owns the pins that it shares with its
member. -/
def Expr.execParts (settings : DecodeSettings) (e : Expr String) : List ExecPart :=
  let parts := ((e.shown settings.mode).execShape settings).parts
  match settings.mode, e.context? with
  | .pseudoBlueprint, some (object, _) =>
    .enter :: .next thenPin :: .input "owner" object :: parts
  | _, _ => parts

end ScriptFlow
