import ScriptFlow.OffsetTable
import ScriptFlow.Proofs.Value.Tree

/-! Bookkeeping takes room and is otherwise not looked at. The fields that a normal form forgets have
a fixed width, so an expression and its normal form have one size, are walked through the same
offsets, and give a stream one offset table; and the comparison of two expressions cannot tell them
from their normal forms, failures included. -/
namespace ScriptFlow

/-! ### Comparisons -/

private theorem agreeAll_normal {xs : List (Expr String)}
    (each : ∀ x ∈ xs, ∀ b : Expr String, x.normal.agrees b.normal = x.agrees b)
    (ys : List (Expr String)) : agreeAll (xs.map Expr.normal) (ys.map Expr.normal) = agreeAll xs ys := by
  induction xs generalizing ys with
  | nil => rfl
  | cons x xs ih =>
    cases ys with
    | nil => rfl
    | cons y ys =>
      have later := ih (fun x member => each x (List.mem_cons_of_mem _ member)) ys
      simp only [List.map_cons, agreeAll, each x (by simp), later]

private theorem agreeCases_normal {xs : List (SwitchCase (Expr String))}
    (each : ∀ c ∈ xs, (∀ b : Expr String, c.value.normal.agrees b.normal = c.value.agrees b) ∧
      ∀ b : Expr String, c.result.normal.agrees b.normal = c.result.agrees b)
    (ys : List (SwitchCase (Expr String))) :
    agreeCases (xs.map SwitchCase.normal) (ys.map SwitchCase.normal) = agreeCases xs ys := by
  induction xs generalizing ys with
  | nil => rfl
  | cons x xs ih =>
    cases ys with
    | nil => rfl
    | cons y ys =>
      obtain ⟨value, result⟩ := each x (by simp)
      have later := ih (fun c member => each c (List.mem_cons_of_mem _ member)) ys
      simp only [List.map_cons, SwitchCase.normal, agreeCases, value, result, later]

/-- Normalising twice is normalising once. -/
theorem Binary.normal_normal (op : Binary String) : op.normal.normal = op.normal := by
  cases op <;> rfl

theorem Binary.agrees_normal (f g : Binary String) : f.normal.agrees g.normal = f.agrees g := by
  rw [Bool.eq_iff_iff, Binary.agrees_iff, Binary.agrees_iff, Binary.normal_normal,
    Binary.normal_normal]

private theorem Binary.secondFirst_normal (op : Binary String) :
    op.normal.secondFirst = op.secondFirst := by
  cases op <;> rfl

private theorem unknown?_normal (e : Expr String) : e.normal.unknown? = e.unknown? := by
  cases e <;> rfl

private theorem different_normal {a b : Expr String} (different : a.ctorIdx ≠ b.ctorIdx) :
    a.normal.agrees b.normal = a.agrees b := by
  rw [Expr.agrees.eq_def, Expr.agrees.eq_def a]
  simp only [unknown?_normal]
  cases b.unknown? with
  | some opcode => rfl
  | none =>
    cases a.unknown? with
    | some opcode => rfl
    | none => cases a <;> cases b <;> first | rfl | exact absurd rfl different

/-- The comparison of two normal forms is that of the expressions. -/
theorem agrees_normal (a b : Expr String) : a.normal.agrees b.normal = a.agrees b := by
  induction a generalizing b with
  | atom f =>
    cases b with
    | atom g => rfl
    | _ => exact different_normal (Nat.ne_of_beq_eq_false rfl)
  | unary f x ih =>
    cases b with
    | unary g y => simp only [Expr.normal, agrees_unary, ih]
    | _ => exact different_normal (Nat.ne_of_beq_eq_false rfl)
  | binary f x₁ x₂ first second =>
    cases b with
    | binary g y₁ y₂ =>
      simp only [Expr.normal, agrees_binary, first, second, Binary.agrees_normal,
        Binary.secondFirst_normal]
    | _ => exact different_normal (Nat.ne_of_beq_eq_false rfl)
  | localizedText x₁ x₂ x₃ first second third =>
    cases b with
    | localizedText y₁ y₂ y₃ => simp only [Expr.normal, agrees_localizedText, first, second, third]
    | _ => exact different_normal (Nat.ne_of_beq_eq_false rfl)
  | variadic f xs ih =>
    cases b with
    | variadic g ys =>
      simp only [Expr.normal, agrees_variadic, normalAll_eq_map, List.length_map, agreeAll_normal ih]
    | _ => exact different_normal (Nat.ne_of_beq_eq_false rfl)
  | led f x xs first ih =>
    cases b with
    | led g y ys =>
      simp only [Expr.normal, agrees_led, normalAll_eq_map, List.length_map, first,
        agreeAll_normal ih]
    | _ => exact different_normal (Nat.ne_of_beq_eq_false rfl)
  | switch o x xs x' first ih last =>
    cases b with
    | switch o' y ys y' =>
      simp only [Expr.normal, agrees_switch, normalCases_eq_map, List.length_map, first, last,
        agreeCases_normal ih]
    | _ => exact different_normal (Nat.ne_of_beq_eq_false rfl)

/-! ### Sizes and offsets -/

theorem Binary.widths_normal (op : Binary String) :
    op.normal.widths = op.widths ∧ op.normal.innerWidths = op.innerWidths := by
  cases op <;> exact ⟨rfl, rfl⟩

private theorem sizeAll_normal {operands : List (Expr String)}
    (each : ∀ e ∈ operands, e.normal.size = e.size) :
    sizeAll (operands.map Expr.normal) = sizeAll operands := by
  induction operands with
  | nil => rfl
  | cons e rest ih =>
    have later := ih fun e member => each e (List.mem_cons_of_mem _ member)
    simp only [List.map_cons, sizeAll, each e (by simp), later]

private theorem sizeCases_normal {cases : List (SwitchCase (Expr String))}
    (each : ∀ c ∈ cases, c.value.normal.size = c.value.size ∧ c.result.normal.size = c.result.size) :
    sizeCases (cases.map SwitchCase.normal) = sizeCases cases := by
  induction cases with
  | nil => rfl
  | cons c rest ih =>
    obtain ⟨value, result⟩ := each c (by simp)
    have later := ih fun c member => each c (List.mem_cons_of_mem _ member)
    simp only [List.map_cons, SwitchCase.normal, sizeCases, value, result, later]

/-- An expression and its normal form have one size. -/
theorem size_normal (e : Expr String) : e.normal.size = e.size := by
  induction e with
  | atom op => rfl
  | unary op a ih => simp only [Expr.normal, Expr.size, ih]
  | binary op a b first second =>
    simp only [Expr.normal, Expr.size, first, second, op.widths_normal]
  | localizedText source key space first second third =>
    simp only [Expr.normal, Expr.size, first, second, third]
  | variadic op operands ih =>
    simp only [Expr.normal, Expr.size, normalAll_eq_map, sizeAll_normal ih]
  | led op leader operands first ih =>
    simp only [Expr.normal, Expr.size, normalAll_eq_map, first, sizeAll_normal ih]
  | switch endOffset index cases default first ih last =>
    simp only [Expr.normal, Expr.size, normalCases_eq_map, first, sizeCases_normal ih, last]

/-- A visit of the normal form of what was visited. -/
def Visit.normal (visit : Visit String) : Visit String := { visit with expr := visit.expr.normal }

section Map

variable {β γ : Type} (f : β → γ)

theorem Walk.map_after (visit : β) (walk : Walk β) :
    (walk.after visit).map f = (walk.map f).after (f visit) := rfl

theorem Walk.map_advance (walk : Walk β) (width : Nat) :
    (walk.advance width).map f = (walk.map f).advance width := rfl

theorem Walk.map_andThen (walk : Walk β) (next : Nat → Walk β) :
    (walk.andThen next).map f = (walk.map f).andThen fun offset => (next offset).map f := by
  unfold Walk.andThen Walk.map
  cases walk.result with
  | error gap => rfl
  | ok offset => simp

end Map

private theorem walkAll_normal {operands : List (Expr String)} (depth : Nat)
    (each : ∀ e ∈ operands, ∀ offset depth,
      e.normal.walk offset depth = (e.walk offset depth).map Visit.normal) (offset : Nat) :
    walkAll offset depth (operands.map Expr.normal) =
      (walkAll offset depth operands).map Visit.normal := by
  induction operands generalizing offset with
  | nil => rfl
  | cons e rest ih =>
    have later := ih fun e member => each e (List.mem_cons_of_mem _ member)
    simp only [List.map_cons, walkAll, Walk.map_andThen, each e (by simp), later]

private theorem walkCases_normal {cases : List (SwitchCase (Expr String))} (depth : Nat)
    (each : ∀ c ∈ cases,
      (∀ offset depth, c.value.normal.walk offset depth =
        (c.value.walk offset depth).map Visit.normal) ∧
      ∀ offset depth, c.result.normal.walk offset depth =
        (c.result.walk offset depth).map Visit.normal) (offset : Nat) :
    walkCases offset depth (cases.map SwitchCase.normal) =
      (walkCases offset depth cases).map Visit.normal := by
  induction cases generalizing offset with
  | nil => rfl
  | cons c rest ih =>
    obtain ⟨value, result⟩ := each c (by simp)
    have later := ih fun c member => each c (List.mem_cons_of_mem _ member)
    simp only [List.map_cons, SwitchCase.normal, walkCases, Walk.map_andThen, value, result, later]

/-- The walk of a normal form visits the normal forms of what the walk of the expression visits, at
the same offsets and depths, and ends or fails alike. -/
theorem walk_normal (e : Expr String) (offset depth : Nat) :
    e.normal.walk offset depth = (e.walk offset depth).map Visit.normal := by
  induction e generalizing offset depth with
  | atom op =>
    simp only [Expr.normal, Expr.walk]
    cases op.widths <;> rfl
  | unary op a ih => simp only [Expr.normal, Expr.walk, Walk.map_after, ih, Visit.normal]
  | binary op a b first second =>
    simp only [Expr.normal, Expr.walk, Walk.map_after, Walk.map_andThen, first, second,
      op.widths_normal, Visit.normal]
  | localizedText source key space first second third =>
    simp only [Expr.normal, Expr.walk, Walk.map_after, Walk.map_andThen, first, second, third,
      Visit.normal]
  | variadic op operands ih =>
    simp only [Expr.normal, Expr.walk, Walk.map_after, Walk.map_advance, normalAll_eq_map,
      walkAll_normal _ ih, Visit.normal]
  | led op leader operands first ih =>
    simp only [Expr.normal, Expr.walk, Walk.map_after, Walk.map_advance, Walk.map_andThen,
      normalAll_eq_map, first, walkAll_normal _ ih, Visit.normal]
  | switch endOffset index cases default first ih last =>
    simp only [Expr.normal, Expr.walk, Walk.map_after, Walk.map_andThen, normalCases_eq_map, first,
      walkCases_normal _ ih, last, Visit.normal]

private theorem walkFrom_normal (stream : List (Expr String)) (position offset : Nat) :
    walkFrom position offset (stream.map Expr.normal) =
      (walkFrom position offset stream).map fun visit => (visit.1, visit.2.normal) := by
  induction stream generalizing position offset with
  | nil => rfl
  | cons e rest ih =>
    have here : (e.normal.walk offset 0).map (position, ·) =
        ((e.walk offset 0).map (position, ·)).map fun visit => (visit.1, visit.2.normal) := by
      rw [walk_normal]
      simp [Walk.map, Function.comp_def]
    simp only [List.map_cons, walkFrom, Walk.map_andThen, here, ih]

/-- A stream has the offset table of its normal forms. -/
theorem OffsetTable.build_normal (stream : List (Expr String)) :
    build (stream.map Expr.normal) = build stream := by
  have sites (visit : Nat × Visit String) :
      siteOf visit.1 visit.2.normal = siteOf visit.1 visit.2 := by
    simp only [siteOf, Visit.normal, normal_tokenName]
  simp only [build, walkStream, walkFrom_normal, Walk.map, List.map_map, Function.comp_def, sites]

end ScriptFlow
