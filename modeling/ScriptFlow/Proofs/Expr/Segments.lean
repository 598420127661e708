import ScriptFlow.Proofs.Expr.Offsets

/-! Walks replay the segments. The encoding of an expression is a token and its segments, so the
segments say where each operand starts: behind the token and everything in front of it. A walk
visits an expression and then replays its segments; the size of a known expression is therefore what
its token and its segments take up, and its operands are walked in the order of the segments, each
from where it starts. -/
namespace ScriptFlow

variable {ρ : Type}

/-- The segments of an expression, if it is known. -/
def Expr.body (e : Expr ρ) : List (Segment (Expr ρ)) := e.segments.toOption.getD []

/-- The operands among segments, each with the offset at which it starts when the first segment
starts at the given one. -/
def operandsFrom (offset : Nat) : List (Segment (Expr ρ)) → List (Nat × Expr ρ)
  | [] => []
  | .fixed width :: rest => operandsFrom (offset + width) rest
  | .child e :: rest => (offset, e) :: operandsFrom (offset + e.bytes) rest

/-- The operands of an expression that starts at an offset, in stream order. -/
def Expr.operandsAt (e : Expr ρ) (offset : Nat) : List (Nat × Expr ρ) :=
  operandsFrom (offset + tokenWidth) e.body

/-- The bytes that segments take up. -/
def spanOf : List (Segment (Expr ρ)) → Nat
  | [] => 0
  | .fixed width :: rest => width + spanOf rest
  | .child e :: rest => e.bytes + spanOf rest

/-! ### Where operands start -/

theorem operandsFrom_exprs (segments : List (Segment (Expr ρ))) (offset : Nat) :
    (operandsFrom offset segments).map (·.2) = segments.filterMap Segment.child? := by
  induction segments generalizing offset with
  | nil => rfl
  | cons segment rest ih =>
    cases segment with
    | fixed width => exact ih (offset + width)
    | child e => exact congrArg (e :: ·) (ih (offset + e.bytes))

private theorem operandsFrom_mem {segments : List (Segment (Expr ρ))} {offset o : Nat} {e : Expr ρ}
    (member : (o, e) ∈ operandsFrom offset segments) : .child e ∈ segments := by
  have listed : e ∈ segments.filterMap Segment.child? := by
    rw [← operandsFrom_exprs segments offset]
    exact List.mem_map.mpr ⟨_, member, rfl⟩
  obtain ⟨segment, present, isOperand⟩ := List.mem_filterMap.mp listed
  cases segment with
  | fixed width => cases isOperand
  | child other =>
    cases isOperand
    exact present

/-- An operand stands inside the bytes of its segments. -/
theorem operandsFrom_inside {segments : List (Segment (Expr ρ))} {offset o : Nat} {e : Expr ρ}
    (member : (o, e) ∈ operandsFrom offset segments) :
    offset ≤ o ∧ o + e.bytes ≤ offset + spanOf segments := by
  induction segments generalizing offset with
  | nil => cases member
  | cons segment rest ih =>
    cases segment with
    | fixed width =>
      have inside := ih member
      simp only [spanOf]
      omega
    | child first =>
      simp only [spanOf]
      rcases List.mem_cons.mp member with same | member
      · cases same
        omega
      · have inside := ih member
        omega

/-- Of two operands the first ends before the second starts. -/
theorem operandsFrom_apart (segments : List (Segment (Expr ρ))) (offset : Nat) :
    (operandsFrom offset segments).Pairwise fun a b => a.1 + a.2.bytes ≤ b.1 := by
  induction segments generalizing offset with
  | nil => exact .nil
  | cons segment rest ih =>
    cases segment with
    | fixed width => exact ih (offset + width)
    | child first =>
      refine List.pairwise_cons.mpr ⟨fun later member => ?_, ih (offset + first.bytes)⟩
      exact (operandsFrom_inside member).1

/-! ### Replaying segments -/

/-- Steps over the fields among segments and walks the operands. -/
def replay (depth offset : Nat) : List (Segment (Expr ρ)) → Walk (Visit ρ)
  | [] => .stay offset
  | .fixed width :: rest => replay depth (offset + width) rest
  | .child e :: rest => (e.walk offset depth).andThen fun offset => replay depth offset rest

theorem Walk.andThen_stay {β : Type} (walk : Walk β) : walk.andThen .stay = walk := by
  obtain ⟨visits, result⟩ := walk
  cases result <;> simp [Walk.andThen, Walk.stay]

theorem Walk.andThen_stay_add {β : Type} (walk : Walk β) (width : Nat) :
    (walk.andThen fun offset => .stay (offset + width)) = walk.advance width := by
  obtain ⟨visits, result⟩ := walk
  cases result <;> simp [Walk.andThen, Walk.stay, Walk.advance, Except.map]

theorem Walk.andThen_assoc {β : Type} (walk : Walk β) (next later : Nat → Walk β) :
    (walk.andThen next).andThen later =
      walk.andThen fun offset => (next offset).andThen later := by
  obtain ⟨visits, result⟩ := walk
  cases result with
  | error gap => rfl
  | ok offset =>
    simp only [Walk.andThen]
    cases (next offset).result <;> simp

private theorem Walk.advance_andThen {β : Type} (walk : Walk β) (next : Nat → Walk β)
    (width : Nat) :
    (walk.andThen next).advance width = walk.andThen fun offset => (next offset).advance width := by
  obtain ⟨visits, result⟩ := walk
  cases result <;> rfl

@[simp] theorem replay_fixed (widths : List Nat) (rest : List (Segment (Expr ρ)))
    (depth offset : Nat) :
    replay depth offset (widths.map .fixed ++ rest) =
      replay depth (offset + totalWidth widths) rest := by
  induction widths generalizing offset with
  | nil => rfl
  | cons width widths ih =>
    have sum : offset + totalWidth (width :: widths) = offset + width + totalWidth widths := by
      simp only [totalWidth, List.foldr_cons]
      omega
    rw [sum]
    exact ih (offset + width)

@[simp] theorem replay_children (operands : List (Expr ρ)) (rest : List (Segment (Expr ρ)))
    (depth offset : Nat) :
    replay depth offset (operands.map .child ++ rest) =
      (walkAll offset depth operands).andThen fun offset => replay depth offset rest := by
  induction operands generalizing offset with
  | nil => simp [walkAll, Walk.andThen, Walk.stay]
  | cons e operands ih => simp only [List.map_cons, List.cons_append, replay, walkAll, ih,
      Walk.andThen_assoc]

@[simp] theorem replay_cases (cases : List (SwitchCase (Expr ρ))) (rest : List (Segment (Expr ρ)))
    (depth offset : Nat) :
    replay depth offset (cases.flatMap SwitchCase.segments ++ rest) =
      (walkCases offset depth cases).andThen fun offset => replay depth offset rest := by
  induction cases generalizing offset with
  | nil => simp [walkCases, Walk.andThen, Walk.stay]
  | cons c cases ih => simp only [List.flatMap_cons, SwitchCase.segments, List.cons_append,
      List.nil_append, replay, walkCases, ih, Walk.andThen_assoc]

/-- A walk stops at a token without a layout; otherwise it visits the expression and replays its
segments. -/
theorem walk_eq_replay (e : Expr ρ) (offset depth : Nat) :
    e.walk offset depth =
      match e.segments with
      | .error gap => ⟨[], .error gap⟩
      | .ok segments =>
        (replay (depth + 1) (offset + tokenWidth) segments).after ⟨e, offset, depth⟩ := by
  cases e with
  | atom op =>
    simp only [Expr.walk, Expr.segments]
    cases op.widths with
    | error gap => rfl
    | ok widths =>
      have fields := replay_fixed widths ([] : List (Segment (Expr ρ))) (depth + 1)
        (offset + tokenWidth)
      rw [List.append_nil] at fields
      simp only [Except.map, fields, replay]
  | unary op a => simp only [Expr.walk, Expr.segments, replay_fixed, replay, Walk.andThen_stay]
  | binary op a b =>
    simp only [Expr.walk, Expr.segments, replay_fixed, replay, Walk.andThen_stay]
  | localizedText source key space =>
    simp only [Expr.walk, Expr.segments, replay, Walk.andThen_stay]
  | variadic op operands =>
    simp only [Expr.walk, Expr.segments, replay_fixed, replay_children, replay,
      Walk.andThen_stay_add]
  | led op leader operands =>
    simp only [Expr.walk, Expr.segments, replay_fixed, replay_children, replay,
      Walk.andThen_stay_add, Walk.advance_andThen]
  | switch endOffset index cases default =>
    simp only [Expr.walk, Expr.segments, replay_fixed, replay_cases, replay, Walk.andThen_stay]

/-- A replay that comes to its end met no unknown token. -/
theorem known_of_replay {segments : List (Segment (Expr ρ))} {depth offset last : Nat}
    (ends : (replay depth offset segments).result = .ok last) :
    ∀ e, .child e ∈ segments → e.known = true := by
  induction segments generalizing offset with
  | nil => simp
  | cons segment rest ih =>
    intro e member
    cases segment with
    | fixed width =>
      refine ih ends e ?_
      simpa using member
    | child first =>
      rw [replay, Walk.result_andThen] at ends
      cases stops : (first.walk offset depth).result with
      | error gap => simp [stops, bind, Except.bind] at ends
      | ok middle =>
        rw [stops] at ends
        rcases List.mem_cons.mp member with same | member
        · cases same
          rw [← size_isOk]
          rw [walk_result] at stops
          cases size : e.size with
          | error gap => simp [size, Except.map] at stops
          | ok n => rfl
        · exact ih ends e member

/-- Known operands are walked one after the other, each from where it starts. -/
theorem replay_of_known {segments : List (Segment (Expr ρ))}
    (known : ∀ e, .child e ∈ segments → e.known = true) (depth offset : Nat) :
    replay depth offset segments =
      ⟨(operandsFrom offset segments).flatMap fun (o, e) => (e.walk o depth).visits,
        .ok (offset + spanOf segments)⟩ := by
  induction segments generalizing offset with
  | nil => rfl
  | cons segment rest ih =>
    have later := ih fun e member => known e (by simp [member])
    cases segment with
    | fixed width => rw [replay, later, operandsFrom, spanOf, Nat.add_assoc]
    | child e =>
      rw [replay, Walk.andThen, walk_end (known e (by simp)) offset depth]
      simp only [later, operandsFrom, List.flatMap_cons, spanOf, Nat.add_assoc]

/-! ### Known expressions -/

section Known

variable {e : Expr ρ} (known : e.known = true)

include known

theorem segments_of_known : e.segments = .ok e.body := by
  unfold Expr.body
  cases e with
  | atom op => cases op <;> first | rfl | cases known
  | _ => rfl

/-- A walk visits a known expression first and then replays its segments. -/
theorem walk_of_known (offset depth : Nat) :
    e.walk offset depth =
      (replay (depth + 1) (offset + tokenWidth) e.body).after ⟨e, offset, depth⟩ := by
  rw [walk_eq_replay, segments_of_known known]

theorem body_known : ∀ operand, .child operand ∈ e.body → operand.known = true := by
  have ends := walk_end known 0 0
  rw [walk_of_known known] at ends
  exact known_of_replay ends

/-- The size of an expression is what its token and its segments take up. -/
theorem bytes_eq_span : e.bytes = tokenWidth + spanOf e.body := by
  have ends := walk_end known 0 0
  rw [walk_of_known known, Walk.result_after, replay_of_known (body_known known)] at ends
  have same := Except.ok.inj ends
  omega

/-- A walk visits an expression and then each operand with everything in it. -/
theorem walk_visits (offset depth : Nat) :
    (e.walk offset depth).visits = ⟨e, offset, depth⟩ ::
      (e.operandsAt offset).flatMap fun (o, operand) => (operand.walk o (depth + 1)).visits := by
  rw [walk_of_known known, replay_of_known (body_known known)]
  rfl

theorem children_eq_operands (offset : Nat) :
    e.children = .ok ((e.operandsAt offset).map (·.2)) := by
  unfold Expr.children Expr.operandsAt
  rw [segments_of_known known, operandsFrom_exprs]
  rfl

/-- An operand lies in the bytes of its expression behind the token. -/
theorem operandsAt_inside {offset o : Nat} {operand : Expr ρ}
    (member : (o, operand) ∈ e.operandsAt offset) :
    offset + tokenWidth ≤ o ∧ o + operand.bytes ≤ offset + e.bytes := by
  have inside := operandsFrom_inside member
  rw [bytes_eq_span known]
  omega

theorem operandsAt_known {offset o : Nat} {operand : Expr ρ}
    (member : (o, operand) ∈ e.operandsAt offset) : operand.known = true :=
  body_known known operand (operandsFrom_mem member)

end Known

/-- What holds of a known expression whenever it holds of its operands holds of every known
expression. -/
theorem known_induction {motive : (e : Expr ρ) → e.known = true → Prop}
    (step : ∀ (e : Expr ρ) (known : e.known = true),
      (∀ offset o operand (member : (o, operand) ∈ e.operandsAt offset),
        motive operand (operandsAt_known known member)) → motive e known)
    (e : Expr ρ) (known : e.known = true) : motive e known := by
  -- Operands are shorter than their expression.
  induction size : e.bytes using Nat.strongRecOn generalizing e with
  | ind n ih =>
    refine step e known fun offset o operand member => ?_
    have inside := operandsAt_inside known member
    have shorter : operand.bytes < n := by
      unfold tokenWidth at inside
      omega
    exact ih operand.bytes shorter operand _ rfl

end ScriptFlow
