import ScriptFlow.Proofs.Expr.Segments

/-! Unknown tokens in stream order. An expression consists of itself and then of what its operands
consist of, in the order in which the stream holds them. A walk visits exactly what comes before the
first unknown token in that order and reports that token, and the size of an expression fails with
the same one; a walk and a size that do not fail met none. -/
namespace ScriptFlow

variable {ρ σ : Type}

mutual

/-- Everything that an expression consists of, in stream order. -/
def Expr.preorder : Expr ρ → List (Expr ρ)
  | .atom op => [.atom op]
  | .unary op a => .unary op a :: a.preorder
  | .binary op a b => .binary op a b :: (a.preorder ++ b.preorder)
  | .localizedText source key space =>
    .localizedText source key space :: (source.preorder ++ (key.preorder ++ space.preorder))
  | .variadic op operands => .variadic op operands :: preorderAll operands
  | .led op leader operands =>
    .led op leader operands :: (leader.preorder ++ preorderAll operands)
  | .switch endOffset index cases default =>
    .switch endOffset index cases default ::
      (index.preorder ++ (preorderCases cases ++ default.preorder))

/-- Everything that expressions one after the other consist of. -/
def preorderAll : List (Expr ρ) → List (Expr ρ)
  | [] => []
  | e :: rest => e.preorder ++ preorderAll rest

/-- Everything that the cases of a switch consist of. -/
def preorderCases : List (SwitchCase (Expr ρ)) → List (Expr ρ)
  | [] => []
  | ⟨value, _, result⟩ :: rest => value.preorder ++ (result.preorder ++ preorderCases rest)

end

/-- The failure at an expression that is an unknown token. -/
def Expr.gap? (e : Expr ρ) : Option ModelGap := e.unknown?.map ModelGap.mk

/-- The failure at the first unknown token among expressions. -/
def firstGap? (exprs : List (Expr ρ)) : Option ModelGap := exprs.findSome? Expr.gap?

/-- The expressions in front of the first unknown token. -/
def beforeGap (exprs : List (Expr ρ)) : List (Expr ρ) := exprs.takeWhile (·.gap?.isNone)

/-! ### Stream order and operands -/

/-- Everything that the operands among segments consist of. -/
def contentsOf : List (Segment (Expr ρ)) → List (Expr ρ)
  | [] => []
  | .fixed _ :: rest => contentsOf rest
  | .child e :: rest => e.preorder ++ contentsOf rest

private theorem contentsOf_eq_preorderAll (segments : List (Segment (Expr ρ))) :
    contentsOf segments = preorderAll (segments.filterMap Segment.child?) := by
  induction segments with
  | nil => rfl
  | cons segment rest ih =>
    cases segment with
    | fixed width => exact ih
    | child e => exact congrArg (e.preorder ++ ·) ih

@[simp] theorem contentsOf_fixed (widths : List Nat) (rest : List (Segment (Expr ρ))) :
    contentsOf (widths.map Segment.fixed ++ rest) = contentsOf rest := by
  induction widths with
  | nil => rfl
  | cons width widths ih => exact ih

@[simp] theorem contentsOf_children (operands : List (Expr ρ)) (rest : List (Segment (Expr ρ))) :
    contentsOf (operands.map Segment.child ++ rest) = preorderAll operands ++ contentsOf rest := by
  induction operands with
  | nil => rfl
  | cons e operands ih =>
    simp only [List.map_cons, List.cons_append, contentsOf, ih, preorderAll, List.append_assoc]

@[simp] theorem contentsOf_cases (cases : List (SwitchCase (Expr ρ)))
    (rest : List (Segment (Expr ρ))) :
    contentsOf (cases.flatMap SwitchCase.segments ++ rest) =
      preorderCases cases ++ contentsOf rest := by
  induction cases with
  | nil => rfl
  | cons c cases ih =>
    simp only [List.flatMap_cons, SwitchCase.segments, List.cons_append, List.nil_append,
      contentsOf, ih, preorderCases, List.append_assoc]

private theorem preorder_of_segments {e : Expr ρ} {segments : List (Segment (Expr ρ))}
    (laidOut : e.segments = .ok segments) : e.preorder = e :: contentsOf segments := by
  cases e with
  | atom op =>
    cases fields : op.widths with
    | error gap => simp [Expr.segments, fields, Except.map] at laidOut
    | ok widths =>
      have bare := contentsOf_fixed widths ([] : List (Segment (Expr ρ)))
      simp only [Expr.segments, fields, Except.map, Except.ok.injEq] at laidOut
      rw [List.append_nil, laidOut] at bare
      rw [bare]
      rfl
  | _ =>
    cases laidOut
    simp only [Expr.preorder, contentsOf_fixed, contentsOf_children, contentsOf_cases, contentsOf,
      List.append_nil]

/-- An expression comes first, and then its operands in the order of their encoding, each with all
that it consists of. -/
theorem preorder_of_children {e : Expr ρ} {operands : List (Expr ρ)}
    (children : e.children = .ok operands) : e.preorder = e :: preorderAll operands := by
  unfold Expr.children at children
  cases laidOut : e.segments with
  | error gap => simp [laidOut, Except.map] at children
  | ok segments =>
    simp only [laidOut, Except.map, Except.ok.injEq] at children
    rw [preorder_of_segments laidOut, contentsOf_eq_preorderAll, children]

/-! ### The first unknown token -/

theorem firstGap?_append (first second : List (Expr ρ)) :
    firstGap? (first ++ second) = (firstGap? first).or (firstGap? second) :=
  List.findSome?_append

theorem beforeGap_append (first second : List (Expr ρ)) :
    beforeGap (first ++ second) =
      if firstGap? first = none then first ++ beforeGap second else beforeGap first := by
  induction first with
  | nil => simp [firstGap?]
  | cons e rest ih =>
    unfold beforeGap firstGap? at ih ⊢
    rw [List.cons_append, List.takeWhile_cons, List.findSome?_cons]
    cases own : e.gap? with
    | none =>
      simp only [Option.isNone_none, ↓reduceIte, ih]
      split
      · rfl
      · simp [own]
    | some gap => simp [own]

/-- A walk through expressions: it visits those in front of the first unknown token, at which it
stops, and comes to its end if there is none. -/
structure Walk.Explores (exprs : List (Expr ρ)) (walk : Walk (Visit ρ)) : Prop where
  visited : walk.visits.map (·.expr) = beforeGap exprs
  stopped : ∀ gap, walk.result = .error gap ↔ firstGap? exprs = some gap

namespace Walk.Explores

variable {exprs later : List (Expr ρ)} {walk : Walk (Visit ρ)}

theorem ended (explores : walk.Explores exprs) {last : Nat} (ends : walk.result = .ok last) :
    firstGap? exprs = none := by
  rw [Option.eq_none_iff_forall_ne_some]
  intro gap stops
  rw [← explores.stopped, ends] at stops
  cases stops

theorem stay (offset : Nat) : (Walk.stay offset : Walk (Visit ρ)).Explores [] where
  visited := rfl
  stopped gap := by simp [firstGap?]

theorem after {e : Expr ρ} (explores : walk.Explores exprs) (known : e.gap? = none)
    (offset depth : Nat) : (walk.after ⟨e, offset, depth⟩).Explores (e :: exprs) where
  visited := by
    have rest := explores.visited
    unfold beforeGap at rest ⊢
    simp [Walk.after, known, rest]
  stopped gap := by
    rw [Walk.result_after, explores.stopped]
    simp [firstGap?, known]

/-- A walk goes on where the first one ended, and not at all if that one was stopped. -/
theorem andThen {next : Nat → Walk (Visit ρ)} (explores : walk.Explores exprs)
    (continued : ∀ offset, (next offset).Explores later) :
    (walk.andThen next).Explores (exprs ++ later) := by
  have first := explores.visited
  unfold Walk.andThen
  cases ends : walk.result with
  | error gap =>
    have stops := (explores.stopped gap).mp ends
    constructor
    · rw [beforeGap_append, if_neg (by simp [stops])]
      exact first
    · intro other
      rw [firstGap?_append, stops]
      simp
  | ok offset =>
    have none := explores.ended ends
    have rest := continued offset
    have whole : beforeGap exprs = exprs := by
      have alone := beforeGap_append exprs []
      simpa [none, beforeGap] using alone
    constructor
    · rw [beforeGap_append, if_pos none, List.map_append, first, whole, rest.visited]
    · intro gap
      rw [firstGap?_append, none, Option.none_or]
      exact rest.stopped gap

theorem advance (explores : walk.Explores exprs) (width : Nat) :
    (walk.advance width).Explores exprs where
  visited := explores.visited
  stopped gap := by
    rw [← explores.stopped, Walk.result_advance]
    cases walk.result <;> simp [Except.map]

end Walk.Explores

private theorem walkAll_explores {operands : List (Expr ρ)} (depth : Nat)
    (each : ∀ e ∈ operands, ∀ offset depth, (e.walk offset depth).Explores e.preorder)
    (offset : Nat) : (walkAll offset depth operands).Explores (preorderAll operands) := by
  induction operands generalizing offset with
  | nil => exact .stay offset
  | cons e rest ih =>
    have later := ih fun e member => each e (by simp [member])
    rw [walkAll, preorderAll]
    exact (each e (by simp) offset depth).andThen later

private theorem walkCases_explores {cases : List (SwitchCase (Expr ρ))} (depth : Nat)
    (each : ∀ c ∈ cases, (∀ offset depth, (c.value.walk offset depth).Explores c.value.preorder) ∧
      ∀ offset depth, (c.result.walk offset depth).Explores c.result.preorder) (offset : Nat) :
    (walkCases offset depth cases).Explores (preorderCases cases) := by
  induction cases generalizing offset with
  | nil => exact .stay offset
  | cons c rest ih =>
    obtain ⟨value, result⟩ := each c (by simp)
    have later := ih fun c member => each c (by simp [member])
    rw [walkCases, preorderCases]
    exact (value offset depth).andThen fun middle => (result _ depth).andThen later

/-- A walk visits an expression and what it consists of, up to the first unknown token. -/
theorem walk_explores (e : Expr ρ) (offset depth : Nat) :
    (e.walk offset depth).Explores e.preorder := by
  induction e generalizing offset depth with
  | atom op =>
    cases op with
    | unknown opcode =>
      constructor
      · rfl
      · intro gap
        simp [Expr.walk, Atom.widths, Expr.preorder, firstGap?, Expr.gap?, Expr.unknown?]
    | _ => exact (Walk.Explores.stay _).after rfl offset depth
  | unary op a ih =>
    rw [Expr.walk, Expr.preorder]
    exact (ih _ _).after rfl offset depth
  | binary op a b first second =>
    rw [Expr.walk, Expr.preorder]
    exact ((first _ _).andThen fun _ => second _ _).after rfl offset depth
  | localizedText source key space first second third =>
    rw [Expr.walk, Expr.preorder]
    have rest := fun middle => (second middle (depth + 1)).andThen fun last => third last (depth + 1)
    exact ((first _ _).andThen rest).after rfl offset depth
  | variadic op operands ih =>
    rw [Expr.walk, Expr.preorder]
    exact ((walkAll_explores (depth + 1) ih _).advance _).after rfl offset depth
  | led op leader operands first ih =>
    rw [Expr.walk, Expr.preorder]
    have whole := (first (offset + tokenWidth + totalWidth op.widths) (depth + 1)).andThen
      fun middle => walkAll_explores (depth + 1) ih (middle + totalWidth op.innerWidths)
    exact (whole.advance terminatorWidth).after rfl offset depth
  | switch endOffset index cases default first ih last =>
    rw [Expr.walk, Expr.preorder]
    have rest := fun middle => (walkCases_explores (depth + 1) ih middle).andThen
      fun last' => last last' (depth + 1)
    exact ((first _ _).andThen rest).after rfl offset depth

/-! ### Sizes -/

/-- The size of an expression fails at its first unknown token. -/
theorem size_eq_error_iff (e : Expr ρ) (gap : ModelGap) :
    e.size = .error gap ↔ firstGap? e.preorder = some gap := by
  rw [← (walk_explores e 0 0).stopped, walk_result]
  cases e.size <;> simp [Except.map]

/-- An expression is known exactly when no unknown token is met in it. -/
theorem known_iff_firstGap? (e : Expr ρ) : e.known = true ↔ firstGap? e.preorder = none := by
  rw [← size_isOk, Option.eq_none_iff_forall_ne_some]
  simp only [ne_eq, ← size_eq_error_iff]
  cases e.size <;> simp [Except.isOk, Except.toBool]

theorem sizeAll_eq_error_iff (stream : List (Expr ρ)) (gap : ModelGap) :
    sizeAll stream = .error gap ↔ firstGap? (preorderAll stream) = some gap := by
  induction stream with
  | nil => simp [sizeAll, preorderAll, firstGap?]
  | cons e rest ih =>
    have own := size_eq_error_iff e
    rw [preorderAll, firstGap?_append, sizeAll]
    cases size : e.size with
    | error other =>
      rw [(own other).mp size]
      simp [bind, Except.bind]
    | ok width =>
      have none : firstGap? e.preorder = none := by
        rw [Option.eq_none_iff_forall_ne_some]
        intro other stops
        rw [← own, size] at stops
        cases stops
      rw [none, Option.none_or, ← ih]
      cases sizeAll rest <;> simp [bind, Except.bind, pure, Except.pure]

theorem knownAll_iff_firstGap? (stream : List (Expr ρ)) :
    (∀ e ∈ stream, e.known = true) ↔ firstGap? (preorderAll stream) = none := by
  induction stream with
  | nil => simp [preorderAll, firstGap?]
  | cons e rest ih => simp [preorderAll, firstGap?_append, ← ih, known_iff_firstGap?]

/-- A stream is walked to where its bytes end, and the walk fails as the size does. -/
theorem walkFrom_result (stream : List (Expr ρ)) (position offset : Nat) :
    (walkFrom position offset stream).result = (sizeAll stream).map (offset + ·) := by
  induction stream generalizing position offset with
  | nil => rfl
  | cons e rest ih =>
    rw [walkFrom, Walk.result_andThen, Walk.result_map, walk_result, sizeAll]
    cases e.size with
    | error gap => rfl
    | ok width =>
      have later := ih (position + 1) (offset + width)
      simp only [Except.map, bind, Except.bind, later]
      cases sizeAll rest <;> simp [pure, Except.pure, Nat.add_assoc]

/-! ### Naming references -/

section MapRefs

variable (property object : ρ → σ)

private theorem preorderAll_mapRefs {operands : List (Expr ρ)}
    (each : ∀ e ∈ operands, (e.mapRefs property object).preorder =
      e.preorder.map (·.mapRefs property object)) :
    preorderAll (mapRefsAll property object operands) =
      (preorderAll operands).map (·.mapRefs property object) := by
  induction operands with
  | nil => rfl
  | cons e rest ih =>
    have later := ih fun e member => each e (by simp [member])
    simp only [mapRefsAll, preorderAll, each e (by simp), later, List.map_append]

private theorem preorderCases_mapRefs {cases : List (SwitchCase (Expr ρ))}
    (each : ∀ c ∈ cases, (c.value.mapRefs property object).preorder =
        c.value.preorder.map (·.mapRefs property object) ∧
      (c.result.mapRefs property object).preorder =
        c.result.preorder.map (·.mapRefs property object)) :
    preorderCases (mapRefsCases property object cases) =
      (preorderCases cases).map (·.mapRefs property object) := by
  induction cases with
  | nil => rfl
  | cons c rest ih =>
    have later := ih fun c member => each c (by simp [member])
    have here := each c (by simp)
    simp only [mapRefsCases, preorderCases, here.1, here.2, later, List.map_append]

theorem preorder_mapRefs (e : Expr ρ) :
    (e.mapRefs property object).preorder = e.preorder.map (·.mapRefs property object) := by
  induction e with
  | atom op => rfl
  | unary op a ih => simp only [Expr.mapRefs, Expr.preorder, ih, List.map_cons]
  | binary op a b first second =>
    simp only [Expr.mapRefs, Expr.preorder, first, second, List.map_cons, List.map_append]
  | localizedText source key space first second third =>
    simp only [Expr.mapRefs, Expr.preorder, first, second, third, List.map_cons, List.map_append]
  | variadic op operands ih =>
    simp only [Expr.mapRefs, Expr.preorder, preorderAll_mapRefs property object ih, List.map_cons]
  | led op leader operands first ih =>
    simp only [Expr.mapRefs, Expr.preorder, first, preorderAll_mapRefs property object ih,
      List.map_cons, List.map_append]
  | switch endOffset index cases default first ih last =>
    simp only [Expr.mapRefs, Expr.preorder, first, preorderCases_mapRefs property object ih, last,
      List.map_cons, List.map_append]

private theorem gap?_mapRefs (e : Expr ρ) : (e.mapRefs property object).gap? = e.gap? := by
  cases e with
  | atom op => cases op <;> rfl
  | _ => rfl

end MapRefs

/-- Naming references does not move the first unknown token of a stream. -/
theorem firstGap?_resolve (symbols : Symbols) (stream : List (Expr SymbolRef)) :
    firstGap? (preorderAll (stream.map symbols.resolve)) = firstGap? (preorderAll stream) := by
  have named : preorderAll (stream.map symbols.resolve) =
      (preorderAll stream).map symbols.resolve := by
    have each : preorderAll (mapRefsAll symbols.property symbols.object stream) =
        (preorderAll stream).map (·.mapRefs symbols.property symbols.object) :=
      preorderAll_mapRefs _ _ fun e _ => preorder_mapRefs _ _ e
    rw [mapRefsAll_eq_map] at each
    exact each
  have same : Expr.gap? ∘ symbols.resolve = Expr.gap? :=
    funext fun e => gap?_mapRefs symbols.property symbols.object e
  rw [named, firstGap?, List.findSome?_map, same]
  rfl

end ScriptFlow
