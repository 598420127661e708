import ScriptFlow.Expr.Encoding
import ScriptFlow.Symbols

/-!
Two comparisons of expressions. Structural equality compares what expressions mean: references by
name, numbers bit by bit, and without the bookkeeping of context accesses and switches, which
records positions in the stream and nothing about the value. It fails when the comparison reaches
an unknown token. Identity compares expressions as they are stored.
-/

namespace ScriptFlow

/-- Whether two operations mean the same. Context accesses need only be of the same kind. -/
def Atom.agrees (a b : Atom String) : Bool := a = b

@[inherit_doc Atom.agrees]
def Unary.agrees (a b : Unary String) : Bool := a = b

@[inherit_doc Atom.agrees]
def Binary.agrees : Binary String → Binary String → Bool
  | .context kind _ _, .context kind' _ _ => kind = kind'
  | a, b => a = b

@[inherit_doc Atom.agrees]
def Variadic.agrees (a b : Variadic String) : Bool := a = b

@[inherit_doc Atom.agrees]
def Led.agrees (a b : Led String) : Bool := a = b

/-- Whether the second operand is compared before the first: the member of a context access
is. -/
def Binary.secondFirst {ρ : Type} : Binary ρ → Bool
  | .context .. => true
  | _ => false

/-- The second comparison decides if the first one holds. -/
def both (first : Except ModelGap Bool) (second : Unit → Except ModelGap Bool) :
    Except ModelGap Bool :=
  match first with
  | .error gap => .error gap
  | .ok false => .ok false
  | .ok true => second ()

mutual

/-- Structural equality of two expressions whose references have been resolved. Of two unknown
tokens the one in the second expression is reported. -/
def Expr.agrees : Expr String → Expr String → Except ModelGap Bool
  | a, b =>
    match b.unknown?, a.unknown? with
    | some opcode, _ => .error ⟨opcode⟩
    | none, some opcode => .error ⟨opcode⟩
    | none, none =>
      match a, b with
      | .atom f, .atom g => .ok (f.agrees g)
      | .unary f x, .unary g y => both (.ok (f.agrees g)) fun _ => x.agrees y
      | .binary f x₁ x₂, .binary g y₁ y₂ =>
        both (.ok (f.agrees g)) fun _ =>
          if f.secondFirst then both (x₂.agrees y₂) fun _ => x₁.agrees y₁
          else both (x₁.agrees y₁) fun _ => x₂.agrees y₂
      | .localizedText x₁ x₂ x₃, .localizedText y₁ y₂ y₃ =>
        both (x₁.agrees y₁) fun _ => both (x₂.agrees y₂) fun _ => x₃.agrees y₃
      | .variadic f xs, .variadic g ys =>
        both (.ok (f.agrees g && xs.length == ys.length)) fun _ => agreeAll xs ys
      | .led f x xs, .led g y ys =>
        both (.ok (f.agrees g)) fun _ =>
          both (x.agrees y) fun _ =>
            both (.ok (xs.length == ys.length)) fun _ => agreeAll xs ys
      | .switch _ x xs x', .switch _ y ys y' =>
        both (x.agrees y) fun _ =>
          both (.ok (xs.length == ys.length)) fun _ =>
            both (agreeCases xs ys) fun _ => x'.agrees y'
      | _, _ => .ok false

/-- Structural equality of two lists of the same length, from the front. -/
def agreeAll : List (Expr String) → List (Expr String) → Except ModelGap Bool
  | [], _ => .ok true
  | _ :: _, [] => .ok true
  | x :: xs, y :: ys => both (x.agrees y) fun _ => agreeAll xs ys

/-- Structural equality of the cases of two switches, from the front. -/
def agreeCases :
    List (SwitchCase (Expr String)) → List (SwitchCase (Expr String)) → Except ModelGap Bool
  | [], _ => .ok true
  | _ :: _, [] => .ok true
  | ⟨x, _, x'⟩ :: xs, ⟨y, _, y'⟩ :: ys =>
    both (x.agrees y) fun _ => both (x'.agrees y') fun _ => agreeCases xs ys

end

/-- Structural equality of two expressions under the given symbols. -/
def structurallyEqual (symbols : Symbols) (a b : Expr SymbolRef) : Except ModelGap Bool :=
  (symbols.resolve a).agrees (symbols.resolve b)

/-- Whether two vectors have the same numbers. -/
def Vector3.identical (a b : Vector3) : Bool :=
  a.x.sameNumber b.x && a.y.sameNumber b.y && a.z.sameNumber b.z

/-- Whether two rotations have the same numbers. -/
def Rotator.identical (a b : Rotator) : Bool :=
  a.pitch.sameNumber b.pitch && a.yaw.sameNumber b.yaw && a.roll.sameNumber b.roll

/-- Whether two quaternions have the same numbers. -/
def Quaternion.identical (a b : Quaternion) : Bool :=
  a.x.sameNumber b.x && a.y.sameNumber b.y && a.z.sameNumber b.z && a.w.sameNumber b.w

/-- Whether two transforms have the same numbers. -/
def Transform.identical (a b : Transform) : Bool :=
  a.rotation.identical b.rotation && a.displacement.identical b.displacement &&
    a.scale.identical b.scale

section Identity

variable {ρ : Type} [DecidableEq ρ]

/-- Whether two operations are the same, numbers compared as numbers. -/
def Atom.identical : Atom ρ → Atom ρ → Bool
  | .float x, .float y => x.sameNumber y
  | .vector v, .vector w => v.identical w
  | .rotation r, .rotation s => r.identical s
  | .transform t, .transform u => t.identical u
  | a, b => a = b

mutual

/-- Whether two expressions are the same as stored, numbers compared as numbers. -/
def Expr.identical : Expr ρ → Expr ρ → Bool
  | .atom f, .atom g => f.identical g
  | .unary f x, .unary g y => f = g && x.identical y
  | .binary f x₁ x₂, .binary g y₁ y₂ => f = g && x₁.identical y₁ && x₂.identical y₂
  | .localizedText x₁ x₂ x₃, .localizedText y₁ y₂ y₃ =>
    x₁.identical y₁ && x₂.identical y₂ && x₃.identical y₃
  | .variadic f xs, .variadic g ys => f = g && identicalAll xs ys
  | .led f x xs, .led g y ys => f = g && x.identical y && identicalAll xs ys
  | .switch o x xs x', .switch o' y ys y' =>
    o = o' && x.identical y && identicalCases xs ys && x'.identical y'
  | _, _ => false

/-- Whether two lists of expressions are the same. -/
def identicalAll : List (Expr ρ) → List (Expr ρ) → Bool
  | [], [] => true
  | x :: xs, y :: ys => x.identical y && identicalAll xs ys
  | _, _ => false

/-- Whether the cases of two switches are the same. -/
def identicalCases : List (SwitchCase (Expr ρ)) → List (SwitchCase (Expr ρ)) → Bool
  | [], [] => true
  | ⟨x, n, x'⟩ :: xs, ⟨y, m, y'⟩ :: ys =>
    x.identical y && n = m && x'.identical y' && identicalCases xs ys
  | _, _ => false

end

end Identity

end ScriptFlow
