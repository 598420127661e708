import ScriptFlow.Proofs.Expr.Bookkeeping
import ScriptFlow.Proofs.Expr.Segments

/-! Footprints of expressions. What a walk shows of an expression is the tokens in it, each with its
offset and its depth, and where it ends. The segments of the encoding decide all of this, so a change
of expressions that keeps tokens and segments, and changes the operands likewise, leaves no mark in
the stream. Naming references and forgetting bookkeeping is such a change; what two structurally
equal expressions share is therefore enough to lay both out in the same way. -/
namespace ScriptFlow

variable {ρ σ : Type}

/-- What a visit shows of an expression: its token, where that stands and how deep. -/
def Visit.print (visit : Visit ρ) : String × Nat × Nat :=
  (visit.expr.tokenName, visit.offset, visit.depth)

/-- A segment with its operand changed. -/
def Segment.map {ε ζ : Type} (change : ε → ζ) : Segment ε → Segment ζ
  | .fixed width => .fixed width
  | .child e => .child (change e)

/-- A change of expressions that keeps their encoding: tokens stay, and so do all fields around the
operands, which are changed one by one. -/
structure KeepsEncoding (change : Expr ρ → Expr σ) : Prop where
  token : ∀ e, (change e).tokenName = e.tokenName
  segments : ∀ e, (change e).segments = e.segments.map (·.map (Segment.map change))

/-- A change after another one. -/
theorem KeepsEncoding.comp {τ : Type} {second : Expr σ → Expr τ} {first : Expr ρ → Expr σ}
    (later : KeepsEncoding second) (earlier : KeepsEncoding first) :
    KeepsEncoding (second ∘ first) where
  token e := (later.token (first e)).trans (earlier.token e)
  segments e := by
    have each (segment : Segment (Expr ρ)) :
        Segment.map second (Segment.map first segment) = Segment.map (second ∘ first) segment := by
      cases segment <;> rfl
    rw [Function.comp_apply, later.segments, earlier.segments]
    cases e.segments <;> simp [Except.map, Function.comp_def, each]

/-! ### Walks of changed expressions -/

/-- A visit of what a change makes of the expression visited. -/
def Visit.change (change : Expr ρ → Expr σ) (visit : Visit ρ) : Visit σ :=
  ⟨change visit.expr, visit.offset, visit.depth⟩

/-- A replay visits what a change makes of the expressions visited, if the walks of its operands
do. -/
private theorem replay_change {change : Expr ρ → Expr σ} {segments : List (Segment (Expr ρ))}
    (each : ∀ e, .child e ∈ segments → ∀ offset depth,
      (change e).walk offset depth = (e.walk offset depth).map (Visit.change change))
    (depth offset : Nat) :
    replay depth offset (segments.map (Segment.map change)) =
      (replay depth offset segments).map (Visit.change change) := by
  induction segments generalizing offset with
  | nil => rfl
  | cons segment rest ih =>
    have later := ih fun e member => each e (List.mem_cons_of_mem _ member)
    cases segment with
    | fixed width => exact later (offset + width)
    | child e =>
      simp only [List.map_cons, Segment.map, replay, Walk.map_andThen]
      rw [each e (by simp)]
      simp only [later]

/-- An operand of an expression is among those that the walk of the expression comes to. -/
private theorem operandsAt_of_body {e operand : Expr ρ} (member : .child operand ∈ e.body) :
    ∃ o, (o, operand) ∈ e.operandsAt 0 := by
  have listed : operand ∈ (e.operandsAt 0).map (·.2) := by
    unfold Expr.operandsAt
    rw [operandsFrom_exprs]
    exact List.mem_filterMap.mpr ⟨_, member, rfl⟩
  obtain ⟨⟨o, _⟩, present, rfl⟩ := List.mem_map.mp listed
  exact ⟨o, present⟩

/-- A change that keeps encodings moves no visit of a walk. -/
theorem KeepsEncoding.walk_change {change : Expr ρ → Expr σ} (keeps : KeepsEncoding change)
    {e : Expr ρ} (known : e.known = true) (offset depth : Nat) :
    (change e).walk offset depth = (e.walk offset depth).map (Visit.change change) := by
  induction e, known using known_induction generalizing offset depth with
  | step e known ih =>
    have operands : ∀ operand, .child operand ∈ e.body → ∀ offset depth,
        (change operand).walk offset depth =
          (operand.walk offset depth).map (Visit.change change) := by
      intro operand member
      obtain ⟨o, present⟩ := operandsAt_of_body member
      exact ih 0 o operand present
    have laidOut : (change e).segments = .ok (e.body.map (Segment.map change)) := by
      rw [keeps.segments, segments_of_known known]
      rfl
    rw [walk_of_known known, walk_eq_replay, laidOut]
    simp only [Walk.map_after, replay_change operands, Visit.change]

theorem KeepsEncoding.walkFrom_change {change : Expr ρ → Expr σ} (keeps : KeepsEncoding change)
    {stream : List (Expr ρ)} (known : ∀ e ∈ stream, e.known = true) (position offset : Nat) :
    walkFrom position offset (stream.map change) =
      (walkFrom position offset stream).map (Prod.map id (Visit.change change)) := by
  induction stream generalizing position offset with
  | nil => rfl
  | cons e rest ih =>
    obtain ⟨first, others⟩ := List.forall_mem_cons.mp known
    have here : ((change e).walk offset 0).map (position, ·) =
        ((e.walk offset 0).map (position, ·)).map (Prod.map id (Visit.change change)) := by
      rw [keeps.walk_change first]
      simp [Walk.map, Function.comp_def]
    simp only [List.map_cons, walkFrom, Walk.map_andThen, here, ih others]

private theorem KeepsEncoding.print_change {change : Expr ρ → Expr σ} (keeps : KeepsEncoding change)
    (visit : Visit ρ) : (visit.change change).print = visit.print := by
  simp only [Visit.print, Visit.change, keeps.token]

/-- A change that keeps encodings does not show in any walk. -/
theorem KeepsEncoding.walk {change : Expr ρ → Expr σ} (keeps : KeepsEncoding change) {e : Expr ρ}
    (known : e.known = true) (offset depth : Nat) :
    ((change e).walk offset depth).map Visit.print = (e.walk offset depth).map Visit.print := by
  rw [keeps.walk_change known]
  simp only [Walk.map, List.map_map, Function.comp_def, keeps.print_change]

/-- A change that keeps encodings keeps sizes. -/
theorem KeepsEncoding.size {change : Expr ρ → Expr σ} (keeps : KeepsEncoding change) {e : Expr ρ}
    (known : e.known = true) : (change e).size = e.size := by
  have ends := congrArg Walk.result (keeps.walk known 0 0)
  simp only [Walk.result_map, walk_result, Nat.zero_add] at ends
  cases size : (change e).size <;> cases size' : e.size <;> simp_all [Except.map]

/-! ### Naming references and forgetting bookkeeping -/

section MapRefs

variable (property object : ρ → σ)

theorem Unary.widths_mapRefs (op : Unary ρ) : (op.mapRefs property object).widths = op.widths := by
  cases op with
  | primitiveCast conversion => cases conversion <;> rfl
  | _ => rfl

theorem Variadic.widths_mapRefs (op : Variadic ρ) :
    (op.mapRefs property object).widths = op.widths := by
  cases op <;> rfl

theorem Led.widths_mapRefs (op : Led ρ) :
    (op.mapRefs object).widths = op.widths ∧
      (op.mapRefs object).innerWidths = op.innerWidths := by
  cases op with
  | assignContainer kind => cases kind <;> exact ⟨rfl, rfl⟩
  | callDelegate target => exact ⟨rfl, rfl⟩

end MapRefs

/-- Naming references keeps encodings: a reference stands in a field of a fixed width. -/
theorem Symbols.resolve_keepsEncoding (symbols : Symbols) : KeepsEncoding symbols.resolve where
  token e := by
    unfold Symbols.resolve
    cases e with
    | atom op => cases op <;> rfl
    | unary op a => cases op <;> rfl
    | binary op a b => cases op <;> rfl
    | variadic op operands => cases op <;> rfl
    | led op leader operands => cases op <;> rfl
    | _ => rfl
  segments e := by
    cases e with
    | atom op => cases op <;> rfl
    | unary op a =>
      simp [Symbols.resolve, Expr.mapRefs, Expr.segments, Unary.widths_mapRefs, Segment.map,
        Except.map, Function.comp_def]
    | binary op a b => cases op <;> rfl
    | localizedText source key space => rfl
    | variadic op operands =>
      simp [Symbols.resolve, Expr.mapRefs, Expr.segments, mapRefsAll_eq_map,
        Variadic.widths_mapRefs, Segment.map, Except.map, Function.comp_def]
    | led op leader operands =>
      simp [Symbols.resolve, Expr.mapRefs, Expr.segments, mapRefsAll_eq_map, Led.widths_mapRefs,
        Segment.map, Except.map, Function.comp_def]
    | switch endOffset index cases default =>
      simp [Symbols.resolve, Expr.mapRefs, Expr.segments, mapRefsCases_eq_map,
        SwitchCase.segments, Segment.map, Except.map, Function.comp_def, List.map_flatMap,
        List.flatMap_map]

/-- Forgetting bookkeeping keeps encodings: the bytes to skip and the recorded offsets stand in
fields of a fixed width. -/
theorem Expr.normal_keepsEncoding : KeepsEncoding Expr.normal where
  token := normal_tokenName
  segments e := by
    cases e with
    | atom op => cases op <;> rfl
    | unary op a =>
      simp [Expr.normal, Expr.segments, Segment.map, Except.map, Function.comp_def]
    | binary op a b => cases op <;> rfl
    | localizedText source key space => rfl
    | variadic op operands =>
      simp [Expr.normal, Expr.segments, Segment.map, Except.map, Function.comp_def]
    | led op leader operands =>
      simp [Expr.normal, Expr.segments, Segment.map, Except.map, Function.comp_def]
    | switch endOffset index cases default =>
      simp [Expr.normal, Expr.segments, SwitchCase.normal, SwitchCase.segments, Segment.map,
        Except.map, Function.comp_def, List.map_flatMap, List.flatMap_map]

theorem Symbols.normal_keepsEncoding (symbols : Symbols) : KeepsEncoding symbols.normal :=
  Expr.normal_keepsEncoding.comp symbols.resolve_keepsEncoding

/-! ### Structurally equal expressions -/

/-- Structurally equal expressions have the same footprint. Both have a size, the same one; and from
every start and depth the walks of the two succeed, end together, and come to the same tokens at the
same offsets and depths, in the same order. -/
theorem same_footprint_of_structurallyEqual (symbols : Symbols) (a b : Expr SymbolRef)
    (equal : structurallyEqual symbols a b = .ok true) :
    ∃ bytes, a.size = .ok bytes ∧ b.size = .ok bytes ∧ ∀ start depth,
      (a.walk start depth).result = .ok (start + bytes) ∧
      (b.walk start depth).result = .ok (start + bytes) ∧
      (a.walk start depth).visits.map Visit.print =
        (b.walk start depth).visits.map Visit.print := by
  obtain ⟨aResolved, bResolved, sameNormal⟩ := (agrees_true_iff _ _).mp equal
  have aKnown : a.known = true := (resolve_known symbols a).symm.trans aResolved
  have bKnown : b.known = true := (resolve_known symbols b).symm.trans bResolved
  have keeps := symbols.normal_keepsEncoding
  have sameForm : symbols.normal a = symbols.normal b := sameNormal
  obtain ⟨bytes, size⟩ : ∃ bytes, a.size = .ok bytes := ⟨a.bytes, size_of_known aKnown⟩
  have sameSize : b.size = .ok bytes := by
    rw [← keeps.size bKnown, ← sameForm, keeps.size aKnown, size]
  refine ⟨bytes, size, sameSize, ?_⟩
  intro start depth
  have sameWalk : (a.walk start depth).map Visit.print = (b.walk start depth).map Visit.print := by
    rw [← keeps.walk aKnown, ← keeps.walk bKnown, sameForm]
  refine ⟨?_, ?_, ?_⟩
  · rw [walk_result, size]
    rfl
  · rw [walk_result, sameSize]
    rfl
  · exact congrArg Walk.visits sameWalk

/-- Two accesses to one member, through different indices and with different bookkeeping, are laid
out alike. -/
theorem same_footprint_of_structurallyEqual_access :
    let symbols : Symbols := ⟨fun _ => "Actor.Health", fun _ => "Actor"⟩
    let access (skip : UInt32) (index : SymbolRef) : Expr SymbolRef :=
      .binary (.context .plain skip index) (.atom (.marker .selfObject))
        (.atom (.readVariable .instanceMember index))
    structurallyEqual symbols (access 3 7) (access 9 (-2)) = .ok true ∧
      ∃ bytes, (access 3 7).size = .ok bytes ∧ (access 9 (-2)).size = .ok bytes ∧
        ((access 3 7).walk 40 2).visits.map Visit.print =
          ((access 9 (-2)).walk 40 2).visits.map Visit.print := by
  intro symbols access
  have equal : structurallyEqual symbols (access 3 7) (access 9 (-2)) = .ok true :=
    (agrees_true_iff _ _).mpr ⟨rfl, rfl, rfl⟩
  obtain ⟨bytes, first, second, walks⟩ := same_footprint_of_structurallyEqual symbols _ _ equal
  exact ⟨equal, bytes, first, second, (walks 40 2).2.2⟩

end ScriptFlow
