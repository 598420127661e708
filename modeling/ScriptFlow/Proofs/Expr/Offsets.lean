import ScriptFlow.OffsetTable
import ScriptFlow.Proofs.Collection.OrderedMap
import ScriptFlow.Proofs.Expr.Structure

/-! Where expressions start. A walk ends as far behind its start as the expression is long, and the
offsets it hands out grow from visit to visit, so no two expressions share one. The offset table
therefore knows the instructions of a stream: their offsets are the sums of the sizes before them,
and no other offset is a top-level one. -/
namespace ScriptFlow

variable {ρ : Type}

/-! ### Sizes -/

/-- The bytes of an expression, if it is known. -/
def Expr.bytes (e : Expr ρ) : Nat := e.size.toOption.getD 0

private theorem sizeAll_isOk {operands : List (Expr ρ)}
    (each : ∀ e ∈ operands, e.size.isOk = e.known) :
    (sizeAll operands).isOk = knownAll operands := by
  induction operands with
  | nil => rfl
  | cons e rest ih =>
    rw [sizeAll, knownAll, ← each e (by simp), ← ih fun e member => each e (by simp [member])]
    cases e.size <;> cases sizeAll rest <;> rfl

private theorem sizeCases_isOk {cases : List (SwitchCase (Expr ρ))}
    (each : ∀ c ∈ cases, c.value.size.isOk = c.value.known ∧ c.result.size.isOk = c.result.known) :
    (sizeCases cases).isOk = knownCases cases := by
  induction cases with
  | nil => rfl
  | cons c rest ih =>
    rw [sizeCases, knownCases, ← (each c (by simp)).1, ← (each c (by simp)).2,
      ← ih fun c member => each c (by simp [member])]
    cases c.value.size <;> cases c.result.size <;> cases sizeCases rest <;> rfl

/-- An expression has a size exactly when it is known. -/
theorem size_isOk (e : Expr ρ) : e.size.isOk = e.known := by
  induction e with
  | atom op => cases op <;> rfl
  | unary op a ih =>
    rw [Expr.size, Expr.known, ← ih]
    cases a.size <;> rfl
  | binary op a b first second =>
    rw [Expr.size, Expr.known, ← first, ← second]
    cases a.size <;> cases b.size <;> rfl
  | localizedText source key space first second third =>
    rw [Expr.size, Expr.known, ← first, ← second, ← third]
    cases source.size <;> cases key.size <;> cases space.size <;> rfl
  | variadic op operands ih =>
    rw [Expr.size, Expr.known, ← sizeAll_isOk ih]
    cases sizeAll operands <;> rfl
  | led op leader operands first ih =>
    rw [Expr.size, Expr.known, ← first, ← sizeAll_isOk ih]
    cases leader.size <;> cases sizeAll operands <;> rfl
  | switch endOffset index cases default first ih last =>
    rw [Expr.size, Expr.known, ← first, ← sizeCases_isOk ih, ← last]
    cases index.size <;> cases sizeCases cases <;> cases default.size <;> rfl

theorem size_of_known {e : Expr ρ} (known : e.known = true) : e.size = .ok e.bytes := by
  rw [← size_isOk] at known
  unfold Expr.bytes
  cases size : e.size with
  | error gap => simp [size, Except.isOk, Except.toBool] at known
  | ok n => rfl

/-! ### Where a walk ends -/

@[simp] theorem Walk.result_stay {β : Type} (offset : Nat) :
    (Walk.stay offset : Walk β).result = .ok offset := rfl

@[simp] theorem Walk.result_after {β : Type} (visit : β) (walk : Walk β) :
    (walk.after visit).result = walk.result := rfl

@[simp] theorem Walk.result_andThen {β : Type} (walk : Walk β) (next : Nat → Walk β) :
    (walk.andThen next).result = walk.result >>= fun offset => (next offset).result := by
  unfold Walk.andThen
  cases walk.result <;> rfl

@[simp] theorem Walk.result_advance {β : Type} (walk : Walk β) (width : Nat) :
    (walk.advance width).result = walk.result.map (· + width) := rfl

@[simp] theorem Walk.result_map {β γ : Type} (f : β → γ) (walk : Walk β) :
    (walk.map f).result = walk.result := rfl

private theorem walkAll_result {operands : List (Expr ρ)} (depth : Nat)
    (each : ∀ e ∈ operands, ∀ offset depth,
      (e.walk offset depth).result = e.size.map (offset + ·)) (offset : Nat) :
    (walkAll offset depth operands).result = (sizeAll operands).map (offset + ·) := by
  induction operands generalizing offset with
  | nil => rfl
  | cons e rest ih =>
    have later := ih fun e member => each e (by simp [member])
    simp only [walkAll, sizeAll, Walk.result_andThen, each e (by simp), later]
    cases e.size <;> cases sizeAll rest <;>
      simp [bind, Except.bind, pure, Except.pure, Except.map, Nat.add_assoc]

private theorem walkCases_result {cases : List (SwitchCase (Expr ρ))} (depth : Nat)
    (each : ∀ c ∈ cases,
      (∀ offset depth, (c.value.walk offset depth).result = c.value.size.map (offset + ·)) ∧
      ∀ offset depth, (c.result.walk offset depth).result = c.result.size.map (offset + ·))
    (offset : Nat) :
    (walkCases offset depth cases).result = (sizeCases cases).map (offset + ·) := by
  induction cases generalizing offset with
  | nil => rfl
  | cons c rest ih =>
    have later := ih fun c member => each c (by simp [member])
    simp only [walkCases, sizeCases, Walk.result_andThen, (each c (by simp)).1,
      (each c (by simp)).2, later]
    cases c.value.size <;> cases c.result.size <;> cases sizeCases rest <;>
      simp [bind, Except.bind, pure, Except.pure, Except.map, Nat.add_assoc]

/-- A walk ends where the expression does, and fails as its size does. -/
theorem walk_result (e : Expr ρ) (offset depth : Nat) :
    (e.walk offset depth).result = e.size.map (offset + ·) := by
  induction e generalizing offset depth with
  | atom op =>
    simp only [Expr.walk, Expr.size]
    cases op.widths <;>
      simp [bind, Except.bind, pure, Except.pure, Except.map, Nat.add_assoc]
  | unary op a ih =>
    simp only [Expr.walk, Expr.size, Walk.result_after, ih]
    cases a.size <;> simp [bind, Except.bind, pure, Except.pure, Except.map, Nat.add_assoc]
  | binary op a b first second =>
    simp only [Expr.walk, Expr.size, Walk.result_after, Walk.result_andThen, first, second]
    cases a.size <;> cases b.size <;>
      simp [bind, Except.bind, pure, Except.pure, Except.map, Nat.add_assoc]
  | localizedText source key space first second third =>
    simp only [Expr.walk, Expr.size, Walk.result_after, Walk.result_andThen, first, second, third]
    cases source.size <;> cases key.size <;> cases space.size <;>
      simp [bind, Except.bind, pure, Except.pure, Except.map, Nat.add_assoc]
  | variadic op operands ih =>
    simp only [Expr.walk, Expr.size, Walk.result_after, Walk.result_advance, walkAll_result _ ih]
    cases sizeAll operands <;>
      simp [bind, Except.bind, pure, Except.pure, Except.map, Nat.add_assoc]
  | led op leader operands first ih =>
    simp only [Expr.walk, Expr.size, Walk.result_after, Walk.result_andThen, Walk.result_advance,
      first, walkAll_result _ ih]
    cases leader.size <;> cases sizeAll operands <;>
      simp [bind, Except.bind, pure, Except.pure, Except.map, Nat.add_assoc]
  | switch endOffset index cases default first ih last =>
    simp only [Expr.walk, Expr.size, Walk.result_after, Walk.result_andThen, first,
      walkCases_result _ ih, last]
    cases index.size <;> cases sizeCases cases <;> cases default.size <;>
      simp [bind, Except.bind, pure, Except.pure, Except.map, Nat.add_assoc]

theorem walk_end {e : Expr ρ} (known : e.known = true) (offset depth : Nat) :
    (e.walk offset depth).result = .ok (offset + e.bytes) := by
  rw [walk_result, size_of_known known]
  rfl

/-! ### The visits of a walk -/

/-- The visits of a walk start at growing offsets, not before the first one, before the end if there
is one, and under at least so many others. -/
structure Walk.Within (first depth : Nat) (walk : Walk (Visit ρ)) : Prop where
  increasing : (walk.visits.map (·.offset)).Pairwise (· < ·)
  above : ∀ visit ∈ walk.visits, first ≤ visit.offset
  below : ∀ last, walk.result = .ok last → first ≤ last ∧ ∀ visit ∈ walk.visits, visit.offset < last
  deep : ∀ visit ∈ walk.visits, depth ≤ visit.depth

namespace Walk.Within

variable {first second depth : Nat} {walk : Walk (Visit ρ)}

theorem stay (later : first ≤ second) : (Walk.stay second : Walk (Visit ρ)).Within first depth where
  increasing := .nil
  above := by simp [Walk.stay]
  below last ends := by
    cases ends
    exact ⟨later, by simp [Walk.stay]⟩
  deep := by simp [Walk.stay]

theorem mono (within : walk.Within second depth) (later : first ≤ second) :
    walk.Within first depth where
  increasing := within.increasing
  above visit member := Nat.le_trans later (within.above visit member)
  below last ends := ⟨Nat.le_trans later (within.below last ends).1, (within.below last ends).2⟩
  deep := within.deep

/-- An expression is visited before everything in it, and starts before it. -/
theorem after {e : Expr ρ} (within : walk.Within second (depth + 1)) (later : first < second) :
    (walk.after ⟨e, first, depth⟩).Within first depth where
  increasing := by
    refine List.pairwise_cons.mpr ⟨fun offset member => ?_, within.increasing⟩
    obtain ⟨visit, visited, rfl⟩ := List.mem_map.mp member
    exact Nat.lt_of_lt_of_le later (within.above visit visited)
  above visit member := by
    rcases List.mem_cons.mp member with rfl | member
    · exact Nat.le_refl _
    · exact Nat.le_trans (Nat.le_of_lt later) (within.above visit member)
  below last ends := by
    obtain ⟨start, earlier⟩ := within.below last ends
    refine ⟨Nat.le_trans (Nat.le_of_lt later) start, fun visit member => ?_⟩
    rcases List.mem_cons.mp member with rfl | member
    · exact Nat.lt_of_lt_of_le later start
    · exact earlier visit member
  deep visit member := by
    rcases List.mem_cons.mp member with rfl | member
    · exact Nat.le_refl _
    · exact Nat.le_of_succ_le (within.deep visit member)

theorem andThen {next : Nat → Walk (Visit ρ)} (within : walk.Within first depth)
    (continued : ∀ offset, (next offset).Within offset depth) :
    (walk.andThen next).Within first depth := by
  unfold Walk.andThen
  cases ends : walk.result with
  | error gap => exact ⟨within.increasing, within.above, by simp, within.deep⟩
  | ok middle =>
    obtain ⟨start, earlier⟩ := within.below middle ends
    have rest := continued middle
    refine ⟨?_, fun visit member => ?_, fun last endsLater => ?_, fun visit member => ?_⟩
    · rw [List.map_append, List.pairwise_append]
      refine ⟨within.increasing, rest.increasing, ?_⟩
      simp only [List.forall_mem_map]
      intro visit visited other otherVisited
      exact Nat.lt_of_lt_of_le (earlier visit visited) (rest.above other otherVisited)
    · rcases List.mem_append.mp member with member | member
      · exact within.above visit member
      · exact Nat.le_trans start (rest.above visit member)
    · obtain ⟨restStart, restEarlier⟩ := rest.below last endsLater
      refine ⟨Nat.le_trans start restStart, fun visit member => ?_⟩
      rcases List.mem_append.mp member with member | member
      · exact Nat.lt_of_lt_of_le (earlier visit member) restStart
      · exact restEarlier visit member
    · rcases List.mem_append.mp member with member | member
      · exact within.deep visit member
      · exact rest.deep visit member

theorem advance (within : walk.Within first depth) (width : Nat) :
    (walk.advance width).Within first depth where
  increasing := within.increasing
  above := within.above
  below last ends := by
    cases middle : walk.result with
    | error gap => simp [middle, Except.map] at ends
    | ok offset =>
      obtain ⟨start, earlier⟩ := within.below offset middle
      rw [Walk.result_advance, middle] at ends
      cases ends
      exact ⟨Nat.le_add_right_of_le start,
        fun visit member => Nat.lt_add_right width (earlier visit member)⟩
  deep := within.deep

end Walk.Within

private theorem walkAll_within {operands : List (Expr ρ)} (depth : Nat)
    (each : ∀ e ∈ operands, ∀ offset depth, (e.walk offset depth).Within offset depth)
    (offset : Nat) : (walkAll offset depth operands).Within offset depth := by
  induction operands generalizing offset with
  | nil => exact .stay (Nat.le_refl _)
  | cons e rest ih =>
    rw [walkAll]
    exact (each e (by simp) offset depth).andThen (ih fun e member => each e (by simp [member]))

private theorem walkCases_within {cases : List (SwitchCase (Expr ρ))} (depth : Nat)
    (each : ∀ c ∈ cases, (∀ offset depth, (c.value.walk offset depth).Within offset depth) ∧
      ∀ offset depth, (c.result.walk offset depth).Within offset depth) (offset : Nat) :
    (walkCases offset depth cases).Within offset depth := by
  induction cases generalizing offset with
  | nil => exact .stay (Nat.le_refl _)
  | cons c rest ih =>
    obtain ⟨value, result⟩ := each c (by simp)
    rw [walkCases]
    refine (value offset depth).andThen fun middle => ?_
    exact ((result _ depth).mono (Nat.le_add_right _ _)).andThen
      (ih fun c member => each c (by simp [member]))

/-- The walk of an expression stops at its token, or it visits the expression first and then only
what is nested in it. -/
inductive Walk.Headed (e : Expr ρ) (offset depth : Nat) : Walk (Visit ρ) → Prop
  | gap (gap : ModelGap) : Headed e offset depth ⟨[], .error gap⟩
  | first {nested : Walk (Visit ρ)} {second : Nat} (later : offset < second)
    (within : nested.Within second (depth + 1)) : Headed e offset depth (nested.after ⟨e, offset, depth⟩)

theorem Walk.Headed.within {e : Expr ρ} {offset depth : Nat} {walk : Walk (Visit ρ)}
    (headed : walk.Headed e offset depth) : walk.Within offset depth := by
  cases headed with
  | gap gap => exact ⟨.nil, by simp, by simp, by simp⟩
  | first later within => exact within.after later

/-- Operands behind a token and some fields are nested in the expression. -/
private theorem headed_of_nested {e : Expr ρ} {offset depth : Nat} {nested : Walk (Visit ρ)}
    (width : Nat) (within : nested.Within (offset + tokenWidth + width) (depth + 1)) :
    (nested.after ⟨e, offset, depth⟩).Headed e offset depth := by
  refine .first ?_ within
  unfold tokenWidth
  omega

theorem walk_headed (e : Expr ρ) (offset depth : Nat) :
    (e.walk offset depth).Headed e offset depth := by
  induction e generalizing offset depth with
  | atom op =>
    rw [Expr.walk]
    split
    · exact .gap _
    · exact headed_of_nested _ (.stay (Nat.le_refl _))
  | unary op a ih =>
    rw [Expr.walk]
    exact headed_of_nested _ (ih _ _).within
  | binary op a b first second =>
    rw [Expr.walk]
    refine headed_of_nested (totalWidth op.widths) ((first _ _).within.andThen fun middle => ?_)
    exact (second _ _).within.mono (Nat.le_add_right _ _)
  | localizedText source key space first second third =>
    rw [Expr.walk]
    refine headed_of_nested 1 ((first _ _).within.andThen fun _ => ?_)
    exact (second _ _).within.andThen fun _ => (third _ _).within
  | variadic op operands ih =>
    rw [Expr.walk]
    have within := walkAll_within (depth + 1) fun e member offset depth => (ih e member offset depth).within
    exact headed_of_nested _ ((within _).advance _)
  | led op leader operands first ih =>
    rw [Expr.walk]
    have within := walkAll_within (depth + 1) fun e member offset depth => (ih e member offset depth).within
    refine headed_of_nested (totalWidth op.widths) (Walk.Within.advance ?_ _)
    exact (first _ _).within.andThen fun middle => (within _).mono (Nat.le_add_right _ _)
  | switch endOffset index cases default first ih last =>
    rw [Expr.walk]
    have within := walkCases_within (depth + 1) fun c member =>
      ⟨fun offset depth => ((ih c member).1 offset depth).within,
        fun offset depth => ((ih c member).2 offset depth).within⟩
    refine headed_of_nested (totalWidth switchWidths) ((first _ _).within.andThen fun _ => ?_)
    exact (within _).andThen fun _ => (last _ _).within

/-- Everything that a walk visits starts at growing offsets inside the expression. -/
theorem walk_within (e : Expr ρ) (offset depth : Nat) :
    (e.walk offset depth).Within offset depth :=
  (walk_headed e offset depth).within

/-! ### The instructions of a stream -/

/-- A top-level expression of a stream. -/
structure Instruction (ρ : Type) where
  /-- Its index in the stream. -/
  position : Nat
  /-- Where its token stands. -/
  offset : Nat
  expr : Expr ρ

/-- Where the next instruction stands. -/
def Instruction.next (i : Instruction ρ) : Nat := i.offset + i.expr.bytes

/-- The instructions of a stream, the first one at the given position and offset. -/
def instructionsFrom (position offset : Nat) : List (Expr ρ) → List (Instruction ρ)
  | [] => []
  | e :: rest => ⟨position, offset, e⟩ :: instructionsFrom (position + 1) (offset + e.bytes) rest

/-- The instructions of a stream, which starts at zero. -/
def instructions (stream : List (Expr ρ)) : List (Instruction ρ) := instructionsFrom 0 0 stream

theorem bytes_pos {e : Expr ρ} (known : e.known = true) : 0 < e.bytes := by
  have ends := walk_end known 0 0
  have headed := walk_headed e 0 0
  generalize e.walk 0 0 = walk at ends headed
  cases headed with
  | gap gap => cases ends
  | first later within =>
    have far := Nat.lt_of_lt_of_le later (within.below _ ends).1
    rwa [Nat.zero_add] at far

theorem instructionsFrom_offset_le {stream : List (Expr ρ)} {position offset : Nat}
    {i : Instruction ρ} (member : i ∈ instructionsFrom position offset stream) :
    position ≤ i.position ∧ offset ≤ i.offset := by
  induction stream generalizing position offset with
  | nil => cases member
  | cons e rest ih =>
    rcases List.mem_cons.mp member with rfl | member
    · exact ⟨Nat.le_refl _, Nat.le_refl _⟩
    · have later := ih member
      exact ⟨Nat.le_of_succ_le later.1, Nat.le_trans (Nat.le_add_right _ _) later.2⟩

/-- Instructions stand one after the other. -/
theorem instructionsFrom_increasing {stream : List (Expr ρ)}
    (known : ∀ e ∈ stream, e.known = true) (position offset : Nat) :
    (instructionsFrom position offset stream).Pairwise fun i j =>
      i.position < j.position ∧ i.offset < j.offset := by
  induction stream generalizing position offset with
  | nil => exact .nil
  | cons e rest ih =>
    refine List.pairwise_cons.mpr ⟨fun j member => ?_, ih (fun e member => known e (by simp [member])) _ _⟩
    have later := instructionsFrom_offset_le member
    have positive := bytes_pos (known e (by simp))
    exact ⟨later.1, Nat.lt_of_lt_of_le (Nat.lt_add_of_pos_right positive) later.2⟩

theorem instructions_positions_nodup {stream : List (Expr ρ)}
    (known : ∀ e ∈ stream, e.known = true) : ((instructions stream).map (·.position)).Nodup :=
  List.pairwise_map.mpr ((instructionsFrom_increasing known 0 0).imp fun later => Nat.ne_of_lt later.1)

theorem instructions_offsets_nodup {stream : List (Expr ρ)}
    (known : ∀ e ∈ stream, e.known = true) : ((instructions stream).map (·.offset)).Nodup :=
  List.pairwise_map.mpr ((instructionsFrom_increasing known 0 0).imp fun later => Nat.ne_of_lt later.2)

/-- The instruction at a position is the expression there. -/
theorem instructionsFrom_expr {stream : List (Expr ρ)} {position offset : Nat}
    {i : Instruction ρ} (member : i ∈ instructionsFrom position offset stream) :
    stream[i.position - position]? = some i.expr := by
  induction stream generalizing position offset with
  | nil => cases member
  | cons e rest ih =>
    rcases List.mem_cons.mp member with rfl | member
    · simp
    · have later := (instructionsFrom_offset_le member).1
      obtain ⟨steps, same⟩ := Nat.exists_eq_add_of_le later
      have here := ih member
      rw [same] at here ⊢
      have shift : position + 1 + steps - position = steps + 1 := by omega
      rw [shift, List.getElem?_cons_succ]
      simpa using here

/-! ### The offset table -/

private theorem walkFrom_isOk (stream : List (Expr ρ)) (position offset : Nat) :
    (walkFrom position offset stream).result.isOk = knownAll stream := by
  induction stream generalizing position offset with
  | nil => rfl
  | cons e rest ih =>
    rw [walkFrom, Walk.result_andThen, Walk.result_map, walk_result, knownAll, ← size_isOk]
    cases e.size with
    | error gap => rfl
    | ok n => exact ih _ _

theorem walkFrom_cons {e : Expr ρ} (known : e.known = true) (rest : List (Expr ρ))
    (position offset : Nat) : (walkFrom position offset (e :: rest)).visits =
      (e.walk offset 0).visits.map (position, ·) ++
        (walkFrom (position + 1) (offset + e.bytes) rest).visits := by
  rw [walkFrom, Walk.andThen, Walk.result_map, walk_end known]
  rfl

/-- The sites of a stream, top-level and nested, from a position and an offset. -/
def sitesFrom (position offset : Nat) (stream : List (Expr ρ)) : List (Nat × Site) :=
  (walkFrom position offset stream).visits.map fun visit => OffsetTable.siteOf visit.1 visit.2

theorem sitesFrom_cons {e : Expr ρ} (known : e.known = true) (rest : List (Expr ρ))
    (position offset : Nat) : sitesFrom position offset (e :: rest) =
      (e.walk offset 0).visits.map (OffsetTable.siteOf position) ++
        sitesFrom (position + 1) (offset + e.bytes) rest := by
  rw [sitesFrom, walkFrom_cons known, List.map_append, List.map_map]
  rfl

theorem sitesFrom_increasing {stream : List (Expr ρ)}
    (known : ∀ e ∈ stream, e.known = true) (position offset : Nat) :
    ((sitesFrom position offset stream).map (·.1)).Pairwise (· < ·) ∧
      ∀ site ∈ sitesFrom position offset stream, offset ≤ site.1 := by
  induction stream generalizing position offset with
  | nil => exact ⟨.nil, by simp [sitesFrom, walkFrom, Walk.stay]⟩
  | cons e rest ih =>
    have eKnown : e.known = true := known e (by simp)
    obtain ⟨increasing, above⟩ := ih (fun e member => known e (by simp [member])) (position + 1)
      (offset + e.bytes)
    have within := walk_within e offset 0
    rw [sitesFrom_cons eKnown]
    constructor
    · rw [List.map_append, List.map_map, List.pairwise_append]
      refine ⟨within.increasing, increasing, ?_⟩
      simp only [List.forall_mem_map, Function.comp_apply]
      intro visit visited site member
      exact Nat.lt_of_lt_of_le ((within.below _ (walk_end eKnown offset 0)).2 visit visited)
        (above site member)
    · intro site member
      rcases List.mem_append.mp member with member | member
      · obtain ⟨visit, visited, rfl⟩ := List.mem_map.mp member
        exact within.above visit visited
      · exact Nat.le_trans (Nat.le_add_right _ _) (above site member)

/-- The first visit of a known expression is the only one that no other encloses. -/
private theorem walk_topLevel {e : Expr ρ} (known : e.known = true) (position offset : Nat) :
    ((e.walk offset 0).visits.map (OffsetTable.siteOf position)).filter (·.2.isTopLevel) =
      [(offset, ⟨position, 0, e.tokenName⟩)] := by
  have ends := walk_end known offset 0
  have headed := walk_headed e offset 0
  generalize e.walk offset 0 = walk at ends headed ⊢
  cases headed with
  | gap gap => cases ends
  | first later within =>
    refine (List.filter_cons_of_pos rfl).trans (congrArg _ ?_)
    rw [List.filter_eq_nil_iff, List.forall_mem_map]
    intro visit visited top
    have nested := within.deep visit visited
    have outermost : visit.depth = 0 := of_decide_eq_true top
    omega

/-- The top-level sites of a stream are its instructions. -/
theorem sitesFrom_topLevel {stream : List (Expr ρ)}
    (known : ∀ e ∈ stream, e.known = true) (position offset : Nat) :
    (sitesFrom position offset stream).filter (·.2.isTopLevel) =
      (instructionsFrom position offset stream).map fun i =>
        (i.offset, ⟨i.position, 0, i.expr.tokenName⟩) := by
  induction stream generalizing position offset with
  | nil => rfl
  | cons e rest ih =>
    have eKnown : e.known = true := known e (by simp)
    have later := ih (fun e member => known e (by simp [member])) (position + 1)
      (offset + e.bytes)
    rw [sitesFrom_cons eKnown, List.filter_append, walk_topLevel eKnown, later]
    rfl

namespace OffsetTable

/-- The position of the instruction that starts at an offset. -/
def topAt? (table : OffsetTable) (offset : Nat) : Option Nat :=
  (table.get? offset).bind fun site => if site.isTopLevel then some site.position else none

/-- A stream has an offset table exactly when all of it is known. -/
theorem build_isOk (stream : List (Expr ρ)) : (build stream).isOk = knownAll stream := by
  rw [← walkFrom_isOk stream 0 0, build, walkStream]
  cases (walkFrom 0 0 stream).result <;> rfl

theorem build_of_known {stream : List (Expr ρ)} (known : ∀ e ∈ stream, e.known = true) :
    ∃ table, build stream = .ok table := by
  have ok := build_isOk stream
  rw [(knownAll_iff stream).mpr known] at ok
  cases built : build stream with
  | error gap => simp [built, Except.isOk, Except.toBool] at ok
  | ok table => exact ⟨table, rfl⟩

theorem build_sites {stream : List (Expr ρ)} {table : OffsetTable}
    (built : build stream = .ok table) : table.sites = sitesFrom 0 0 stream := by
  unfold build walkStream at built
  cases ends : (walkFrom 0 0 stream).result with
  | error gap => simp [ends, Except.map] at built
  | ok last =>
    simp only [ends, Except.map, Except.ok.injEq] at built
    rw [← built]
    rfl

/-- No offset comes twice in a table, so that its list of sites is a map. -/
theorem build_sites_nodup {stream : List (Expr ρ)} {table : OffsetTable}
    (known : ∀ e ∈ stream, e.known = true) (built : build stream = .ok table) :
    (table.sites.map (·.1)).Nodup := by
  rw [build_sites built]
  exact (sitesFrom_increasing known 0 0).1.imp Nat.ne_of_lt

/-- The table of a stream has its instructions as its top-level expressions. -/
theorem topAt?_iff {stream : List (Expr ρ)} {table : OffsetTable}
    (built : build stream = .ok table) (o k : Nat) :
    table.topAt? o = some k ↔ ∃ i ∈ instructions stream, i.offset = o ∧ i.position = k := by
  have known : ∀ e ∈ stream, e.known = true := by
    rw [← knownAll_iff, ← build_isOk, built]
    rfl
  have listed (site : Site) : ((o, site) ∈ table.sites ∧ site.isTopLevel = true) ↔
      ∃ i ∈ instructions stream, (i.offset, (⟨i.position, 0, i.expr.tokenName⟩ : Site)) = (o, site) := by
    rw [← List.mem_map, instructions, ← sitesFrom_topLevel known, List.mem_filter, build_sites built]
  simp only [topAt?, Option.bind_eq_some_iff, get?, find?_key_iff (build_sites_nodup known built)]
  constructor
  · rintro ⟨site, member, position⟩
    by_cases top : site.isTopLevel = true
    · obtain ⟨i, standing, same⟩ := (listed site).mp ⟨member, top⟩
      cases same
      simp only [Site.isTopLevel, decide_true, ↓reduceIte, Option.some.injEq] at position
      exact ⟨i, standing, rfl, position⟩
    · simp [top] at position
  · rintro ⟨i, standing, rfl, rfl⟩
    obtain ⟨member, top⟩ := (listed ⟨i.position, 0, i.expr.tokenName⟩).mpr ⟨i, standing, rfl⟩
    exact ⟨_, member, by simp [top]⟩

end OffsetTable

end ScriptFlow
