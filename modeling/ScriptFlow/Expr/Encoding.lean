import ScriptFlow.Expr.Token
import ScriptFlow.Number.Numeral
import ScriptFlow.Text.Units

/-!
How an expression is laid out in the stream: one token byte, then fixed-width fields and operands
in the order given here. The widths of the fields around the operands are the table on which
sizes, offsets and listings all rest. An unknown token has no layout, and everything that needs one
fails with the opcode of the first such token in stream order. Sizes and offsets are numbers without
bound, which agree with the four bytes of a script's own offsets below `2 ^ 32` bytes.
-/

namespace ScriptFlow

/-- An unknown token was reached, so nothing can be said about what follows it. -/
structure ModelGap where
  /-- The byte of the unknown token. -/
  opcode : UInt8
  deriving DecidableEq

/-- A hexadecimal digit in upper case. -/
def upperHexChar (n : Nat) : Char := (Nat.digitChar n).toUpper

/-- A byte as two upper-case hexadecimal digits. -/
def hexByte (byte : UInt8) : String :=
  String.ofList [upperHexChar (byte.toNat / 16), upperHexChar (byte.toNat % 16)]

/-- The message for an unknown token. -/
def ModelGap.message (gap : ModelGap) : String :=
  "No layout rule for token 0x" ++ hexByte gap.opcode ++ " (EX_Unknown)"

/-- Bytes of the token that starts every expression. -/
def tokenWidth : Nat := 1
/-- Bytes of a reference to a property or an object. -/
def referenceWidth : Nat := 8
/-- Bytes of a name. -/
def nameWidth : Nat := 12
/-- Bytes of an offset or of a count of elements. -/
def offsetWidth : Nat := 4
/-- Bytes of the token that ends a list of operands. -/
def terminatorWidth : Nat := 1

/-- The number of bytes of consecutive fields. -/
def totalWidth (widths : List Nat) : Nat := widths.foldr (· + ·) 0

/-- One piece of an encoding after the token byte. -/
inductive Segment (ε : Type) where
  /-- A field of the given width. -/
  | fixed (width : Nat)
  /-- An operand, encoded in place. -/
  | child (operand : ε)

variable {ρ : Type}

/-- The fields of an operation without operands. A string ends with a zero. -/
def Atom.widths : Atom ρ → Except ModelGap (List Nat)
  | .readVariable .. | .property _ | .object _ => .ok [referenceWidth]
  | .jump _ | .pushFlow _ | .skipOffset _ => .ok [offsetWidth]
  | .marker _ => .ok []
  | .int _ | .float _ => .ok [4]
  | .int64 _ | .uint64 _ => .ok [8]
  | .intByte _ | .byte _ => .ok [1]
  | .string text => .ok [text.length + 1]
  | .unicodeString text => .ok [2 * (units16 text + 1)]
  | .name _ | .instanceDelegate _ => .ok [nameWidth]
  | .vector _ | .rotation _ => .ok [12]
  | .transform _ => .ok [40]
  | .emptyText => .ok [1]
  | .unknown opcode => .error ⟨opcode⟩

/-- The fields in front of a single operand. Only the cast to an interface names its class. -/
def Unary.widths : Unary ρ → List Nat
  | .wrap _ => []
  | .jumpIfNot _ | .skip _ => [offsetWidth]
  | .assert .. => [2, 1]
  | .letPersistent _ | .structMember _ | .classCast .. => [referenceWidth]
  | .primitiveCast .objectToInterface => [1, referenceWidth]
  | .primitiveCast _ => [1]
  | .text _ => [1]

/-- The fields in front of the first of two operands. -/
def Binary.widths : Binary ρ → List Nat
  | .assignProperty _ => [referenceWidth]
  | .bindDelegate _ => [nameWidth]
  | .tableText _ => [1, referenceWidth]
  | .assign _ | .arrayElement | .addDelegate | .removeDelegate | .context .. => []

/-- The fields between two operands. -/
def Binary.innerWidths : Binary ρ → List Nat
  | .context .. => [offsetWidth, referenceWidth]
  | _ => []

/-- The fields in front of a list of operands. -/
def Variadic.widths : Variadic ρ → List Nat
  | .call .. => [referenceWidth]
  | .virtualCall .. => [nameWidth]
  | .struct _ | .collection .. => [referenceWidth, offsetWidth]
  | .map .. => [referenceWidth, referenceWidth, offsetWidth]

/-- The fields in front of a leading operand. -/
def Led.widths : Led ρ → List Nat
  | .assignContainer _ => []
  | .callDelegate _ => [referenceWidth]

/-- The fields between a leading operand and the list that follows it. -/
def Led.innerWidths : Led ρ → List Nat
  | .assignContainer .array => []
  | .assignContainer _ => [offsetWidth]
  | .callDelegate _ => []

/-- The fields in front of the operand of a switch: the number of cases and the end offset. -/
def switchWidths : List Nat := [2, offsetWidth]

/-- The operands of one case with the field between them. -/
def SwitchCase.segments {ε : Type} (c : SwitchCase ε) : List (Segment ε) :=
  [.child c.value, .fixed offsetWidth, .child c.result]

/-- The encoding of an expression after its token byte, in stream order. -/
def Expr.segments : Expr ρ → Except ModelGap (List (Segment (Expr ρ)))
  | .atom op => op.widths.map (·.map .fixed)
  | .unary op a => .ok (op.widths.map .fixed ++ [.child a])
  | .binary op a b =>
    .ok (op.widths.map .fixed ++ .child a :: (op.innerWidths.map .fixed ++ [.child b]))
  | .localizedText source key space => .ok [.fixed 1, .child source, .child key, .child space]
  | .variadic op operands =>
    .ok (op.widths.map .fixed ++ (operands.map .child ++ [.fixed terminatorWidth]))
  | .led op leader operands =>
    .ok (op.widths.map .fixed ++ .child leader ::
      (op.innerWidths.map .fixed ++ (operands.map .child ++ [.fixed terminatorWidth])))
  | .switch _ index cases default =>
    .ok (switchWidths.map .fixed ++ .child index ::
      (cases.flatMap SwitchCase.segments ++ [.child default]))

/-- The operand of a segment, if it is one. -/
def Segment.child? {ε : Type} : Segment ε → Option ε
  | .fixed _ => none
  | .child e => some e

/-- The operands of an expression, in stream order. -/
def Expr.children (e : Expr ρ) : Except ModelGap (List (Expr ρ)) :=
  e.segments.map (·.filterMap Segment.child?)

mutual

/-- The number of bytes of an expression, its token included. -/
def Expr.size : Expr ρ → Except ModelGap Nat
  | .atom op => do return tokenWidth + totalWidth (← op.widths)
  | .unary op a => do return tokenWidth + totalWidth op.widths + (← a.size)
  | .binary op a b => do
    return tokenWidth + totalWidth op.widths + (← a.size) + totalWidth op.innerWidths + (← b.size)
  | .localizedText source key space => do
    return tokenWidth + 1 + (← source.size) + (← key.size) + (← space.size)
  | .variadic op operands => do
    return tokenWidth + totalWidth op.widths + (← sizeAll operands) + terminatorWidth
  | .led op leader operands => do
    return tokenWidth + totalWidth op.widths + (← leader.size) + totalWidth op.innerWidths +
      (← sizeAll operands) + terminatorWidth
  | .switch _ index cases default => do
    return tokenWidth + totalWidth switchWidths + (← index.size) + (← sizeCases cases) +
      (← default.size)

/-- The number of bytes of expressions that stand one after the other. -/
def sizeAll : List (Expr ρ) → Except ModelGap Nat
  | [] => .ok 0
  | e :: rest => do return (← e.size) + (← sizeAll rest)

/-- The number of bytes of the cases of a switch. -/
def sizeCases : List (SwitchCase (Expr ρ)) → Except ModelGap Nat
  | [] => .ok 0
  | ⟨value, _, result⟩ :: rest => do
    return (← value.size) + offsetWidth + (← result.size) + (← sizeCases rest)

end

end ScriptFlow
