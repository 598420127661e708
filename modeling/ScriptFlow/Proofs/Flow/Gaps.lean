import ScriptFlow.Proofs.Expr.Lines
import ScriptFlow.Proofs.Expr.Preorder
import ScriptFlow.Proofs.Flow.Equality

/-! Unknown tokens and the passes over a stream. Measuring, walking, listing and building a graph all
need the layout of every expression, also of those that leave no trace in their result, such as the
operand of a return or the literals of a text. So either all of them succeed, or all of them report
the unknown token that comes first in the stream. -/
namespace ScriptFlow

variable {ρ σ : Type}

theorem walkStream_result (stream : List (Expr ρ)) :
    (walkStream stream).result = sizeAll stream := by
  rw [walkStream, walkFrom_result]
  cases sizeAll stream <;> simp [Except.map]

theorem OffsetTable.build_eq_error_iff (stream : List (Expr ρ)) (gap : ModelGap) :
    OffsetTable.build stream = .error gap ↔ firstGap? (preorderAll stream) = some gap := by
  rw [← sizeAll_eq_error_iff, ← walkStream_result, OffsetTable.build]
  cases (walkStream stream).result <;> simp [Except.map]

private theorem listing_eq_error_iff (stream : List (Expr String)) (gap : ModelGap) :
    listing stream = .error gap ↔ firstGap? (preorderAll stream) = some gap := by
  rw [← sizeAll_eq_error_iff, ← walkStream_result, listing]
  cases (walkStream stream).result <;> simp [Except.map]

/-- Building a graph fails at the first unknown token of the stream and nowhere else: what comes
after the offset table meets known expressions only. -/
theorem graph_eq_error_iff (job : Job) (gap : ModelGap) :
    job.graph = .error gap ↔ firstGap? (preorderAll job.stream) = some gap := by
  rw [← OffsetTable.build_eq_error_iff]
  cases table : OffsetTable.build job.stream with
  | error other => simp [Job.graph, Job.finish, table, bind, Except.bind]
  | ok offsets =>
    have none : firstGap? (preorderAll job.stream) = none := by
      rw [Option.eq_none_iff_forall_ne_some]
      intro other stops
      rw [← OffsetTable.build_eq_error_iff, table] at stops
      cases stops
    obtain ⟨g, built⟩ := graph_of_known job ((knownAll_iff_firstGap? job.stream).mpr none)
    simp [built]

/-- A pass that fails with the first unknown token succeeds where there is none. -/
private theorem ok_of_error_iff {α : Type} {result : Except ModelGap α} {first : Option ModelGap}
    (fails : ∀ gap, result = .error gap ↔ first = some gap) (none : first = none) :
    ∃ a, result = .ok a := by
  cases result with
  | error gap =>
    have stops := (fails gap).mp rfl
    rw [none] at stops
    cases stops
  | ok a => exact ⟨a, rfl⟩

/-! ### What the passes make of a known stream -/

/-- A stream is walked in its order, up to the first unknown token. -/
theorem walkFrom_explores (stream : List (Expr ρ)) (position offset : Nat) :
    ((walkFrom position offset stream).map (·.2)).Explores (preorderAll stream) := by
  induction stream generalizing position offset with
  | nil => exact .stay offset
  | cons e rest ih =>
    have own : ((e.walk offset 0).map (position, ·)).map (·.2) = e.walk offset 0 := by
      simp [Walk.map, Function.comp_def]
    rw [walkFrom, Walk.map_andThen, own, preorderAll]
    exact (walk_explores e offset 0).andThen (ih (position + 1))

/-- The table of a stream lists all of its expressions in order, and ends where the stream does. -/
private theorem build_tokens {stream : List (Expr ρ)} {table : OffsetTable}
    (known : ∀ e ∈ stream, e.known = true) (built : OffsetTable.build stream = .ok table) :
    table.sites.map (·.2.token) = (preorderAll stream).map (·.tokenName) := by
  have visited := (walkFrom_explores stream 0 0).visited
  have none : firstGap? (preorderAll stream) = none := (knownAll_iff_firstGap? stream).mp known
  have whole : beforeGap (preorderAll stream) = preorderAll stream := by
    have alone := beforeGap_append (preorderAll stream) []
    simpa [none, beforeGap] using alone
  rw [whole] at visited
  rw [OffsetTable.build_sites built, ← visited]
  simp [sitesFrom, Walk.map, OffsetTable.siteOf]

private theorem KeepsEncoding.build_change {change : Expr ρ → Expr σ} (keeps : KeepsEncoding change)
    {stream : List (Expr ρ)} (known : ∀ e ∈ stream, e.known = true) :
    OffsetTable.build (stream.map change) = OffsetTable.build stream := by
  rw [OffsetTable.build, walkStream, keeps.walkFrom_change known, ← walkStream, OffsetTable.build]
  simp [Walk.map, OffsetTable.siteOf, Function.comp_def, Visit.change, keeps.token]

/-- The graph of a stream has instruction nodes at offsets of the stream's instructions only. -/
private theorem graph_within (job : Job) (known : ∀ e ∈ job.stream, e.known = true) :
    ∃ table g, OffsetTable.build job.stream = .ok table ∧ job.graph = .ok g ∧
      ∀ offset, g.HasInstruction offset → offset ∈ table.topLevel := by
  obtain ⟨entries, entered⟩ := addEntries_records job {}
  have start := entered job.settings _ (.of_values (.empty _ fun _ => False) (.refl _))
  obtain ⟨table, b, kept, pairs, built, run, finished, -⟩ := job.run_of_known {} start known
  refine ⟨table, _, built, Job.finish_of_run built run, fun offset stands => ?_⟩
  obtain ⟨k, member, rfl⟩ := (finished.hasInstruction_iff offset).mp stands
  rw [OffsetTable.topLevel, OffsetTable.build_sites built, sitesFrom_topLevel known, List.map_map]
  exact List.mem_map_of_mem (finished.mem_instructions member)

/-- All passes agree on unknown tokens. Where the stream holds none, measuring it, walking it, its
offset table, its listing and its graph all succeed, whatever else the graph depends on: the table
ends where the stream does and has its expressions in order, the listing has the row of each visit
and the end, and the graph has instruction nodes at offsets of instructions only. Otherwise each of
them fails with the first unknown token in stream order. That order puts an expression before its
operands and these in the order of their encoding; the size and the walk of a single expression fail
likewise, the walk after visiting exactly what comes before that token. -/
theorem passes_agree_on_gaps (symbols : Symbols) (job : Job) (stream : List (Expr SymbolRef)) :
    let resolved := stream.map symbols.resolve
    let graph := Job.graph { job with stream := resolved }
    (firstGap? (preorderAll stream) = none →
      ∃ width table text g, sizeAll stream = .ok width ∧ (walkStream stream).result = .ok width ∧
        OffsetTable.build stream = .ok table ∧ listing resolved = .ok text ∧ graph = .ok g ∧
        table.endOffset = width ∧
        table.sites.map (·.2.token) = (preorderAll stream).map (·.tokenName) ∧
        text = String.join ((((walkStream stream).visits.map (·.2)).map symbols.row ++
          [endRow width]).map (· ++ "\n")) ∧
        ∀ offset, g.HasInstruction offset → offset ∈ table.topLevel) ∧
    (∀ gap, firstGap? (preorderAll stream) = some gap →
      sizeAll stream = .error gap ∧ (walkStream stream).result = .error gap ∧
        OffsetTable.build stream = .error gap ∧ listing resolved = .error gap ∧
        graph = .error gap) ∧
    ∀ (e : Expr SymbolRef) (start : Nat),
      (∀ operands, e.children = .ok operands → e.preorder = e :: preorderAll operands) ∧
      (e.walk start 0).visits.map (·.expr) = beforeGap e.preorder ∧
      (firstGap? e.preorder = none →
        ∃ width, e.size = .ok width ∧ (e.walk start 0).result = .ok (start + width)) ∧
      ∀ gap, firstGap? e.preorder = some gap →
        e.size = .error gap ∧ (e.walk start 0).result = .error gap := by
  intro resolved graph
  have named : firstGap? (preorderAll resolved) = firstGap? (preorderAll stream) :=
    firstGap?_resolve symbols stream
  have sizes := sizeAll_eq_error_iff stream
  rw [walkStream_result]
  refine ⟨fun none => ?_, fun gap stops => ?_, fun e start => ?_⟩
  · have known := (knownAll_iff_firstGap? stream).mpr none
    have resolvedKnown := (knownAll_iff_firstGap? resolved).mpr (named.trans none)
    have sized := sizeAll_of_known known
    obtain ⟨table, g, built, drawn, within⟩ :=
      graph_within { job with stream := resolved } resolvedKnown
    rw [symbols.resolve_keepsEncoding.build_change known] at built
    exact ⟨_, table, _, g, sized, sized, built, listing_resolve symbols known, drawn,
      OffsetTable.build_endOffset known built, build_tokens known built, rfl, within⟩
  · have sized := (sizes gap).mpr stops
    have listed := (listing_eq_error_iff resolved gap).mpr (named.trans stops)
    have drawn := (graph_eq_error_iff { job with stream := resolved } gap).mpr (named.trans stops)
    exact ⟨sized, sized, (OffsetTable.build_eq_error_iff stream gap).mpr stops, listed, drawn⟩
  · have explores := walk_explores e start 0
    refine ⟨fun operands => preorder_of_children, explores.visited, fun none => ?_,
      fun gap stops => ?_⟩
    · obtain ⟨width, sized⟩ := ok_of_error_iff (size_eq_error_iff e) none
      refine ⟨width, sized, ?_⟩
      rw [walk_result, sized]
      rfl
    · exact ⟨(size_eq_error_iff e gap).mpr stops, (explores.stopped gap).mpr stops⟩

/-- An unknown token in a text that is returned, before another one. It leaves no trace in a graph,
but stops every pass. -/
theorem passes_agree_on_gaps_returned :
    let symbols := ({} : SymbolTable).symbols
    let text : Expr SymbolRef := .unary (.text .invariant) (.atom (.unknown 145))
    let stream : List (Expr SymbolRef) :=
      [.atom (.marker .nothing), .unary (.wrap .returnValue) text, .atom (.unknown 254)]
    let gap : ModelGap := ⟨145⟩
    firstGap? (preorderAll stream) = some gap ∧
      sizeAll stream = .error gap ∧ (walkStream stream).result = .error gap ∧
      OffsetTable.build stream = .error gap ∧ listing (stream.map symbols.resolve) = .error gap ∧
      Job.graph { stream := stream.map symbols.resolve, settings := { mode := .pseudoBlueprint } } =
        .error gap := by
  intro symbols text stream gap
  have first : firstGap? (preorderAll stream) = some gap := by decide
  exact ⟨first, (passes_agree_on_gaps symbols { settings := { mode := .pseudoBlueprint } }
    stream).2.1 gap first⟩

end ScriptFlow
