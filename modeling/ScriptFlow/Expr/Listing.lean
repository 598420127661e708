import ScriptFlow.Expr.Walk
import ScriptFlow.Symbols

/-!
Listings: one line for each expression of a stream, in stream order, with its offset, its depth as
indentation, its token and the operands worth showing, and a last line with the offset at which the
stream ends.
-/

namespace ScriptFlow

/-- How many characters of a string constant a listing shows. -/
def shownCharacters : Nat := 20

/-- A string constant in quotes, cut short if it is long. -/
def quotedExcerpt (text : String) : String :=
  let cs := text.toList
  if shownCharacters < cs.length then
    "\"" ++ String.ofList (cs.take shownCharacters) ++ "...\""
  else "\"" ++ text ++ "\""

/-- The number of operands of a call, as a listing shows it. -/
def countedCall (target : String) (operands : List (Expr String)) : String :=
  target ++ " args=" ++ natText operands.length

/-- The number of elements of a container, as a listing shows it. -/
def countedElements (elements : List (Expr String)) : String :=
  "count=" ++ natText elements.length

/-- What a listing shows of an operation without operands. -/
def Atom.detail : Atom String → String
  | .readVariable _ p => shortName p
  | .property p => shortName p
  | .object o => o
  | .jump target => "-> " ++ natText target.toNat
  | .pushFlow address => "push " ++ natText address.toNat
  | .skipOffset offset => natText offset.toNat
  | .marker _ => ""
  | .int n => intText n.toInt
  | .intByte n => natText n.toNat
  | .int64 n => intText n.toInt
  | .uint64 n => natText n.toNat
  | .float x => x.text
  | .byte n => natText n.toNat
  | .string text => quotedExcerpt text
  | .unicodeString text => quotedExcerpt text
  | .name text => text
  | .instanceDelegate text => text
  | .vector v => "(" ++ v.x.text ++ ", " ++ v.y.text ++ ", " ++ v.z.text ++ ")"
  | .rotation r => "(p=" ++ r.pitch.text ++ ", y=" ++ r.yaw.text ++ ", r=" ++ r.roll.text ++ ")"
  | .transform _ => ""
  | .emptyText => "empty"
  | .unknown opcode => "0x" ++ hexByte opcode

/-- What a listing shows of an operation with one operand. -/
def Unary.detail : Unary String → String
  | .wrap _ => ""
  | .jumpIfNot target => "-> " ++ natText target.toNat ++ " (if not)"
  | .skip count => "skip " ++ natText count.toNat
  | .assert line debugOnly =>
    "line " ++ natText line.toNat ++ (if debugOnly then " (debug)" else "")
  | .letPersistent property => shortName property
  | .structMember member => shortName member
  | .primitiveCast conversion => conversion.describe
  | .classCast _ target => target
  | .text .invariant => "invariant"
  | .text .literal => "literal"

/-- What a listing shows of an operation with two operands. -/
def Binary.detail : Binary String → String
  | .assignProperty property => shortName property
  | .bindDelegate function => function
  | .context _ skip _ => "skip " ++ natText skip.toNat
  | .tableText table => "table " ++ table
  | .assign _ | .arrayElement | .addDelegate | .removeDelegate => ""

/-- What a listing shows of an expression besides its token. -/
def Expr.detail : Expr String → String
  | .atom op => op.detail
  | .unary op _ => op.detail
  | .binary op _ _ => op.detail
  | .localizedText .. => "localized"
  | .variadic (.call _ target) operands => countedCall target operands
  | .variadic (.virtualCall _ name) operands => countedCall name operands
  | .variadic (.struct type) members => type ++ " members=" ++ natText members.length
  | .variadic (.collection ..) elements => countedElements elements
  | .variadic (.map ..) elements => countedElements elements
  | .led (.assignContainer _) _ elements => countedElements elements
  | .led (.callDelegate target) _ operands => countedCall target operands
  | .switch endOffset _ cases _ =>
    "cases=" ++ natText cases.length ++ " end=" ++ natText endOffset.toNat

/-- The line of one visit. -/
def Visit.line (visit : Visit String) : String :=
  let indent := String.ofList (List.replicate (2 * visit.depth) ' ')
  let detail := visit.expr.detail
  padded 4 visit.offset ++ " " ++ indent ++ visit.expr.tokenName ++
    (if detail.isEmpty then "" else " " ++ detail) ++ "\n"

/-- The last line of a listing. -/
def endLine (offset : Nat) : String := padded 4 offset ++ " <end>\n"

/-- The listing of a stream whose references have been resolved. -/
def listing (stream : List (Expr String)) : Except ModelGap String :=
  let walk := walkStream stream
  walk.result.map fun endOffset =>
    String.join (walk.visits.map fun (_, visit) => visit.line) ++ endLine endOffset

end ScriptFlow
