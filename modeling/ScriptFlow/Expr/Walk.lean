import ScriptFlow.Expr.Encoding

/-!
Walking a stream: every expression, nested ones included, is visited in stream order with the
offset of its token and its depth. The walk stops at the first unknown token and keeps what was
visited before it.
-/

namespace ScriptFlow

variable {ρ : Type}

/-- An expression met on a walk. -/
structure Visit (ρ : Type) where
  /-- The expression. -/
  expr : Expr ρ
  /-- Where its token stands. -/
  offset : Nat
  /-- How many expressions enclose it. -/
  depth : Nat

/-- What a walk saw, and the offset it ended at or the unknown token that stopped it. -/
structure Walk (β : Type) where
  /-- The visits in order. -/
  visits : List β
  /-- The offset after the last expression. -/
  result : Except ModelGap Nat

namespace Walk

variable {β γ : Type}

/-- The walk that sees nothing and stands still. -/
def stay (offset : Nat) : Walk β := ⟨[], .ok offset⟩

/-- A walk that starts with one more visit. -/
def after (visit : β) (walk : Walk β) : Walk β := ⟨visit :: walk.visits, walk.result⟩

/-- A walk continued from where it ended. -/
def andThen (walk : Walk β) (next : Nat → Walk β) : Walk β :=
  match walk.result with
  | .error gap => ⟨walk.visits, .error gap⟩
  | .ok offset =>
    let rest := next offset
    ⟨walk.visits ++ rest.visits, rest.result⟩

/-- A walk whose end is moved by a number of bytes. -/
def advance (walk : Walk β) (width : Nat) : Walk β := ⟨walk.visits, walk.result.map (· + width)⟩

/-- A walk with every visit changed. -/
def map (f : β → γ) (walk : Walk β) : Walk γ := ⟨walk.visits.map f, walk.result⟩

end Walk

mutual

/-- Visits an expression that starts at `offset` under `depth` others, and everything in it. -/
def Expr.walk (offset depth : Nat) : Expr ρ → Walk (Visit ρ)
  | .atom op =>
    match op.widths with
    | .error gap => ⟨[], .error gap⟩
    | .ok widths =>
      .after ⟨.atom op, offset, depth⟩ (.stay (offset + tokenWidth + totalWidth widths))
  | .unary op a =>
    .after ⟨.unary op a, offset, depth⟩
      (a.walk (offset + tokenWidth + totalWidth op.widths) (depth + 1))
  | .binary op a b =>
    .after ⟨.binary op a b, offset, depth⟩
      ((a.walk (offset + tokenWidth + totalWidth op.widths) (depth + 1)).andThen fun offset =>
        b.walk (offset + totalWidth op.innerWidths) (depth + 1))
  | .localizedText source key space =>
    .after ⟨.localizedText source key space, offset, depth⟩
      ((source.walk (offset + tokenWidth + 1) (depth + 1)).andThen fun offset =>
        (key.walk offset (depth + 1)).andThen fun offset => space.walk offset (depth + 1))
  | .variadic op operands =>
    .after ⟨.variadic op operands, offset, depth⟩
      ((walkAll (offset + tokenWidth + totalWidth op.widths) (depth + 1) operands).advance
        terminatorWidth)
  | .led op leader operands =>
    .after ⟨.led op leader operands, offset, depth⟩
      (((leader.walk (offset + tokenWidth + totalWidth op.widths) (depth + 1)).andThen fun offset =>
        walkAll (offset + totalWidth op.innerWidths) (depth + 1) operands).advance terminatorWidth)
  | .switch endOffset index cases default =>
    .after ⟨.switch endOffset index cases default, offset, depth⟩
      ((index.walk (offset + tokenWidth + totalWidth switchWidths) (depth + 1)).andThen
        fun offset =>
          (walkCases offset (depth + 1) cases).andThen fun offset =>
            default.walk offset (depth + 1))

/-- Visits expressions that stand one after the other. -/
def walkAll (offset depth : Nat) : List (Expr ρ) → Walk (Visit ρ)
  | [] => .stay offset
  | e :: rest => (e.walk offset depth).andThen fun offset => walkAll offset depth rest

/-- Visits the cases of a switch. -/
def walkCases (offset depth : Nat) : List (SwitchCase (Expr ρ)) → Walk (Visit ρ)
  | [] => .stay offset
  | ⟨value, _, result⟩ :: rest =>
    (value.walk offset depth).andThen fun offset =>
      (result.walk (offset + offsetWidth) depth).andThen fun offset => walkCases offset depth rest

end

/-- Visits the expressions of a stream, each with the position of the top-level expression it
belongs to; the first position and offset are given. -/
def walkFrom (position offset : Nat) : List (Expr ρ) → Walk (Nat × Visit ρ)
  | [] => .stay offset
  | e :: rest =>
    ((e.walk offset 0).map (position, ·)).andThen fun offset => walkFrom (position + 1) offset rest

/-- Visits a whole stream. -/
def walkStream (stream : List (Expr ρ)) : Walk (Nat × Visit ρ) := walkFrom 0 0 stream

end ScriptFlow
