import ScriptFlow.Proofs.Flow.Cycles
import ScriptFlow.Proofs.Flow.Exactness

/-! Entries of a shared body. Whichever function calls it with one constant argument enters it at that
offset, and gets an entry node of its own. The calls are found by scanning all streams in order; only
an instruction counts, not what is nested in one. The entries come before all other nodes, in the
order of the calls, and each continues at the offset that its call passes; a call that passes a
negative offset leaves a remark instead. -/
namespace ScriptFlow

variable {symbols : Symbols} {entry : String}

/-! ### Calls -/

/-- A place at which a shared body is entered: a call in the stream of a function. -/
structure EntrySite where
  /-- The index of the function that calls. -/
  function : Nat
  /-- The position of the call in the stream of the function. -/
  position : Nat
  /-- The name of the function. -/
  name : String
  /-- The offset that the call passes. -/
  start : Int32

namespace EntrySite

/-- One call comes before another: in an earlier function, or earlier in the same stream. -/
def Before (site later : EntrySite) : Prop :=
  site.function < later.function ∨
    site.function = later.function ∧ site.position < later.position

/-- At the site stands a call by reference with one integer constant as its argument, and what it
calls has the short name of `entry`. -/
def Stands (symbols : Symbols) (entry : String)
    (functions : List (String × List (Expr SymbolRef))) (site : EntrySite) : Prop :=
  ∃ stream target, functions[site.function]? = some (site.name, stream) ∧
    stream[site.position]? = some (.variadic (.call .final target) [.atom (.int site.start)]) ∧
    shortName (symbols.object target) = shortName entry

/-- The function that calls and the offset that it passes. -/
def call (site : EntrySite) : String × Int := (site.name, site.start.toInt)

/-- The function that calls and the offset at which its entry starts, unless that is negative. -/
def entered? (site : EntrySite) : Option (String × Nat) :=
  site.start.toInt.toNat?.map (site.name, ·)

end EntrySite

/-- The offset that an expression passes if it calls `entry` by reference with one constant. -/
def Expr.enters? (symbols : Symbols) (entry : String) : Expr SymbolRef → Option Int32
  | .variadic (.call .final target) [.atom (.int start)] =>
    if shortName (symbols.object target) = shortName entry then some start else none
  | _ => none

theorem Expr.enters?_iff (e : Expr SymbolRef) (start : Int32) :
    e.enters? symbols entry = some start ↔
      ∃ target, e = .variadic (.call .final target) [.atom (.int start)] ∧
        shortName (symbols.object target) = shortName entry := by
  constructor
  · intro enters
    unfold Expr.enters? at enters
    split at enters
    · obtain ⟨same, passed⟩ := Option.ite_none_right_eq_some.mp enters
      cases passed
      exact ⟨_, rfl, same⟩
    · cases enters
  · rintro ⟨target, rfl, same⟩
    exact if_pos same

/-- The calls in the streams of functions that enter `entry`, with their sites. -/
def entrySites (symbols : Symbols) (entry : String)
    (functions : List (String × List (Expr SymbolRef))) : List EntrySite :=
  functions.zipIdx.flatMap fun ((name, stream), function) =>
    stream.zipIdx.filterMap fun (e, position) =>
      (e.enters? symbols entry).map (⟨function, position, name, ·⟩)

private theorem mem_entrySites (functions : List (String × List (Expr SymbolRef)))
    (site : EntrySite) :
    site ∈ entrySites symbols entry functions ↔ site.Stands symbols entry functions := by
  simp only [entrySites, List.mem_flatMap, List.mem_filterMap, List.mem_zipIdx_iff_getElem?]
  constructor
  · rintro ⟨⟨⟨name, stream⟩, function⟩, listed, ⟨e, position⟩, standing, found⟩
    obtain ⟨start, enters, rfl⟩ := Option.map_eq_some_iff.mp found
    obtain ⟨target, rfl, same⟩ := (e.enters?_iff start).mp enters
    exact ⟨stream, target, listed, standing, same⟩
  · rintro ⟨stream, target, listed, standing, same⟩
    refine ⟨((site.name, stream), site.function), listed, (_, site.position), standing, ?_⟩
    exact Option.map_eq_some_iff.mpr ⟨site.start, (Expr.enters?_iff _ _).mpr ⟨target, rfl, same⟩, rfl⟩

/-- In a list with indices the indices rise. -/
private theorem zipIdx_rising {α : Type} (items : List α) :
    items.zipIdx.Pairwise fun first second => first.2 < second.2 := by
  have rising : (items.zipIdx.map Prod.snd).Pairwise (· < ·) := by
    rw [List.zipIdx_map_snd]
    exact List.pairwise_lt_range' 1
  exact List.pairwise_map.mp rising

private theorem entrySites_ordered (functions : List (String × List (Expr SymbolRef))) :
    (entrySites symbols entry functions).Pairwise EntrySite.Before := by
  rw [entrySites, List.pairwise_flatMap]
  constructor
  · rintro ⟨⟨name, stream⟩, function⟩ _
    rw [List.pairwise_filterMap]
    refine (zipIdx_rising stream).imp fun later site found site' found' => ?_
    obtain ⟨_, _, rfl⟩ := Option.map_eq_some_iff.mp found
    obtain ⟨_, _, rfl⟩ := Option.map_eq_some_iff.mp found'
    exact .inr ⟨rfl, later⟩
  · refine (zipIdx_rising functions).imp fun later site found site' found' => ?_
    obtain ⟨_, _, made⟩ := List.mem_filterMap.mp found
    obtain ⟨_, _, made'⟩ := List.mem_filterMap.mp found'
    obtain ⟨_, _, rfl⟩ := Option.map_eq_some_iff.mp made
    obtain ⟨_, _, rfl⟩ := Option.map_eq_some_iff.mp made'
    exact .inl later

/-- A resolved expression calls what the raw one calls. -/
theorem entryCall?_resolve (e : Expr SymbolRef) (call : String × Int) :
    entryCall? (symbols.resolve e) = some call ↔
      ∃ target start, e = .variadic (.call .final target) [.atom (.int start)] ∧
        call = (symbols.object target, start.toInt) := by
  constructor
  · intro calls
    unfold entryCall? at calls
    split at calls
    · rename_i target start shape
      cases calls
      -- What is resolved keeps its shape.
      cases e with
      | variadic op operands =>
        obtain ⟨sameOp, sameOperands⟩ := Expr.variadic.inj shape
        rcases operands with _ | ⟨first, _ | ⟨second, rest⟩⟩
        · cases sameOperands
        · obtain ⟨sameFirst, _⟩ := List.cons.inj sameOperands
          cases op <;> cases sameOp
          cases first with
          | atom leaf =>
            cases leaf <;> cases sameFirst
            exact ⟨_, _, rfl, rfl⟩
          | _ => cases sameFirst
        · obtain ⟨_, none⟩ := List.cons.inj sameOperands
          cases none
      | _ => cases shape
    · cases calls
  · rintro ⟨target, start, rfl, rfl⟩
    rfl

/-- An expression enters `entry` if it calls something of that name. -/
theorem entered_eq (e : Expr SymbolRef) (name : String) :
    (match entryCall? (symbols.resolve e) with
      | some (target, start) =>
        if shortName target = shortName entry then some (name, start) else none
      | none => none) = (e.enters? symbols entry).map fun start => (name, start.toInt) := by
  cases calls : entryCall? (symbols.resolve e) with
  | none =>
    cases enters : e.enters? symbols entry with
    | none => rfl
    | some start =>
      obtain ⟨target, rfl, _⟩ := (e.enters?_iff start).mp enters
      cases calls
  | some call =>
    obtain ⟨target, start, rfl, rfl⟩ := (entryCall?_resolve e call).mp calls
    simp only [Expr.enters?]
    split <;> rfl

/-- The scan finds the calls at their sites, in order. -/
theorem entryCalls_eq (functions : List (String × List (Expr SymbolRef))) :
    Job.entryCalls entry (functions.map fun f => (f.1, f.2.map symbols.resolve)) =
      (entrySites symbols entry functions).map EntrySite.call := by
  have scanned (name : String) (stream : List (Expr SymbolRef)) (function : Nat) :
      (stream.zipIdx.filterMap fun (e, position) =>
        (e.enters? symbols entry).map (EntrySite.mk function position name)).map EntrySite.call =
      stream.filterMap fun e => (e.enters? symbols entry).map fun start => (name, start.toInt) := by
    conv_rhs => rw [← List.zipIdx_map_fst 0 stream, List.filterMap_map]
    rw [List.map_filterMap]
    refine List.filterMap_congr fun (e, position) _ => ?_
    simp [EntrySite.call, Function.comp_def]
  conv_lhs => rw [← List.zipIdx_map_fst 0 functions]
  rw [Job.entryCalls, entrySites, List.flatMap_map, List.flatMap_map, List.map_flatMap]
  refine List.flatMap_congr fun ((name, stream), function) _ => ?_
  rw [scanned]
  dsimp only
  rw [List.filterMap_map]
  exact List.filterMap_congr fun e _ => entered_eq e name

/-! ### Entries of a job -/

/-- The calls that give a function entries besides its own. -/
def Job.otherCalls (job : Job) (entry : String) : List (String × Int) :=
  match job.isDispatch entry, job.functions with
  | true, some functions => Job.entryCalls entry functions
  | _, _ => []

private theorem Job.addEntries_eq {job : Job} (named : job.entry = some entry) (b : Build) :
    job.addEntries b =
      (job.otherCalls entry).foldl (Job.addEntryCall entry) (b.addEntry entry 0) := by
  simp only [Job.addEntries, named, Job.otherCalls]
  cases job.isDispatch entry <;> cases job.functions <;> rfl

private theorem Job.entryStarts_eq {job : Job} (named : job.entry = some entry) :
    job.entryStarts = (entry, 0) :: (job.otherCalls entry).filterMap entryStart? := by
  simp only [Job.entryStarts, named, Job.otherCalls]
  cases job.isDispatch entry <;> cases job.functions <;> rfl

/-- The other calls are those at the sites at which a shared body is entered. -/
theorem Job.exists_sites (job : Job) (entry : String)
    {functions : Option (List (String × List (Expr SymbolRef)))}
    (resolved : job.functions = functions.map (·.map fun f => (f.1, f.2.map symbols.resolve))) :
    ∃ sites : List EntrySite, sites.Pairwise EntrySite.Before ∧
      (∀ site, site ∈ sites ↔
        job.isDispatch entry = true ∧ ∃ all ∈ functions, site.Stands symbols entry all) ∧
      job.otherCalls entry = sites.map EntrySite.call := by
  simp only [Job.otherCalls, resolved]
  cases shared : job.isDispatch entry with
  | false => exact ⟨[], .nil, by simp, rfl⟩
  | true =>
    cases functions with
    | none => exact ⟨[], .nil, by simp, rfl⟩
    | some all =>
      refine ⟨entrySites symbols entry all, entrySites_ordered all, fun site => ?_, entryCalls_eq all⟩
      simp [mem_entrySites]

/-- Entries are recorded in order. -/
theorem entriesFrom_getElem? (starts : List (String × Nat)) (node k : Nat) :
    (entriesFrom node starts)[k]? =
      starts[k]?.map fun start => ⟨node + k, start.1, start.2⟩ := by
  induction starts generalizing node k with
  | nil => rfl
  | cons first rest ih =>
    cases k with
    | zero => rfl
    | succ k =>
      have next : node + 1 + k = node + (k + 1) := by omega
      simp only [entriesFrom, List.getElem?_cons_succ, ih, next]

/-! ### Remarks -/

/-- Whether a report is about a call that passes a negative offset. -/
def DiagnosticCode.ofEntry (code : DiagnosticCode) : Bool := code = .negativeEntry

private theorem foldl_addEntryCall_reports (calls : List (String × Int)) (b : Build) :
    (calls.foldl (Job.addEntryCall entry) b).graph.reports DiagnosticCode.ofEntry =
      b.graph.reports DiagnosticCode.ofEntry ++
        (calls.filter (·.2 < 0)).map fun call => .negativeEntry call.1 entry call.2 := by
  induction calls generalizing b with
  | nil => simp
  | cons call rest ih =>
    obtain ⟨function, start⟩ := call
    rw [List.foldl_cons, ih]
    cases start with
    | ofNat start =>
      have quiet : (b.addEntry function start).graph.reports DiagnosticCode.ofEntry =
          b.graph.reports DiagnosticCode.ofEntry := Graph.reports_addPin ..
      simp [Job.addEntryCall, quiet]
    | negSucc n =>
      have negative : Int.negSucc n < 0 := Int.negSucc_lt_zero n
      simp [Job.addEntryCall, negative, Graph.reports, Graph.diagnose, Diagnostic.negativeEntry,
        DiagnosticCode.ofEntry]

/-- Seeding the entries remarks on each call that passes a negative offset, in order. -/
private theorem addEntries_remarks (job : Job) (named : job.entry = some entry) (b : Build) :
    (job.addEntries b).graph.reports DiagnosticCode.ofEntry =
      b.graph.reports DiagnosticCode.ofEntry ++
        ((job.otherCalls entry).filter (·.2 < 0)).map fun call =>
          .negativeEntry call.1 entry call.2 := by
  have own : (b.addEntry entry 0).graph.reports DiagnosticCode.ofEntry =
      b.graph.reports DiagnosticCode.ofEntry := Graph.reports_addPin ..
  rw [Job.addEntries_eq named, foldl_addEntryCall_reports, own]

/-! ### Where an entry leads -/

/-- Control goes on from the offset of an instruction that is folded away. -/
def Job.Skips (job : Job) (g : Graph) (x y : Nat) : Prop := job.FoldsTo x y ∧ ¬ g.HasInstruction x

section Leads

variable {job : Job} {isOpen : NodeId → Prop} {entries : List Entry} {kept : List Kept}
  {pairs : List (Nat × Nat)} {b : Build} {g : Graph} {x y z : Nat}

namespace Build.Finished

/-- What is skipped was folded. -/
private theorem leads_eq_skips
    (done : b.Finished job.settings isOpen job.stream entries kept pairs g) :
    JumpTable.Leads pairs = job.Skips g := by
  ext x y
  constructor
  · exact fun pair => ⟨done.foldsTo_of_pair pair, done.absent_of_pair pair⟩
  · rintro ⟨folds, absent⟩
    obtain ⟨i, inStream, rfl, _⟩ := (job.foldsTo_iff x y).mp folds
    rcases done.sifts.kept_or_folded inStream with isKept | ⟨target, pair⟩
    · obtain ⟨k, member, rfl⟩ := List.mem_map.mp isKept
      exact absurd ((done.hasInstruction_iff _).mpr ⟨k, member, rfl⟩) absent
    · rwa [Job.foldsTo_functional done.known folds (done.foldsTo_of_pair pair)]

/-- An output leads to the first instruction with a node from the offset at which it continues. -/
private theorem leads_iff_skips
    (done : b.Finished job.settings isOpen job.stream entries kept pairs g)
    {o : Obligation} (owed : o ∈ owedBy job.settings entries kept) (offset : Nat) :
    (∃ t, g.execTarget? o.source o.pin = some t ∧ g.IsInstruction t offset) ↔
      Relation.ReflTransGen (job.Skips g) o.target offset ∧ g.HasInstruction offset := by
  have ends := done.records.accounts.ends o.target
  rw [done.leads_iff owed, ← done.leads_eq_skips]
  constructor
  · rintro ⟨rfl, present⟩
    exact ⟨ends.reaches, present⟩
  · rintro ⟨skips, present⟩
    have arrives := JumpTable.arrives_of_reaches skips fun _ pair => done.absent_of_pair pair present
    exact ⟨arrives.unique done.pairs_functional ends, present⟩

end Build.Finished

/-- A node is an entry from which execution continues at an offset. -/
structure Graph.Enters (g : Graph) (job : Job) (offsets : OffsetTable) (id : NodeId)
    (name : String) (start : Nat) : Prop where
  node : g.node? id =
    some { id, label := name, kind := .entry, pins := [⟨thenPin, .output, .execution⟩] }
  /-- Execution goes on to the first instruction with a node from that offset. -/
  leads_iff : ∀ offset, (∃ t, g.execTarget? id thenPin = some t ∧ g.IsInstruction t offset) ↔
    Relation.ReflTransGen (job.Skips g) start offset ∧ g.HasInstruction offset
  /-- With nothing folded that is the instruction at the offset itself, -/
  settled : job.settings.foldTracepoints = false → job.settings.foldJumps = false →
    g.Settled offsets id thenPin start
  /-- which has a node if it is one of the stream. -/
  connected : job.settings.foldTracepoints = false → job.settings.foldJumps = false →
    ∀ k, offsets.offsetOf? k = some start →
      ∃ t, g.IsInstruction t start ∧ ⟨.execution, id, thenPin, t, executePin⟩ ∈ g.edges

/-- The node of every entry that the construction started with leads where its function starts. -/
theorem Build.Finished.enters {offsets : OffsetTable}
    (done : b.Finished job.settings isOpen job.stream entries kept pairs
      (b.jumps.resolve offsets b.nodeAt? b.graph).1)
    (quiet : b.graph.reports DiagnosticCode.ofJump = [])
    (built : OffsetTable.build job.stream = .ok offsets) {start : Entry} (member : start ∈ entries) :
    (b.jumps.resolve offsets b.nodeAt? b.graph).1.Enters job offsets start.node start.name
      start.start := by
  have settled (keepTracepoints : job.settings.foldTracepoints = false)
      (keepJumps : job.settings.foldJumps = false) :
      (b.jumps.resolve offsets b.nodeAt? b.graph).1.Settled offsets start.node thenPin
        start.start := by
    rw [← job.settings.unfolded_eq_self keepTracepoints keepJumps] at done
    exact settled_of_owed done quiet built (owed_of_entry member)
  refine ⟨done.entry_node member, done.leads_iff_skips (owed_of_entry member), settled,
    fun keepTracepoints keepJumps k starts => ?_⟩
  have here := settled keepTracepoints keepJumps
  rw [← job.settings.unfolded_eq_self keepTracepoints keepJumps] at done
  have standing := starts
  rw [OffsetTable.offsetOf?_eq done.known built] at standing
  obtain ⟨e, standing, same⟩ := Option.map_eq_some_iff.mp standing
  have listed := instructions_getElem? job.stream k
  rw [standing, Option.map_some] at listed
  obtain ⟨i, isKept, shown⟩ := done.kept_unfolded (List.mem_of_getElem? listed)
  have stands := (done.isInstruction_iff i.node start.start).mpr ⟨i, isKept, rfl, by rw [shown, same]⟩
  exact ⟨i.node, stands, (here.edge_iff k _ i.node starts stands).mpr rfl⟩

end Leads

/-- Entries are found exactly. A known stream has a graph, whatever its references are called. If the
function is a shared body, the entries besides its own come from the calls at certain sites: those of
the instructions of all functions that call it by reference with one integer constant, in the order
of the functions and of their streams. Entry nodes come before all others, one for each entry in
turn, with the name of the function that calls and the offset that the call passes; and the remarks
on negative offsets are one for each call that passes such an offset, in turn. -/
theorem entries_exact (symbols : Symbols) (settings : DecodeSettings) (isDispatch : String → Bool)
    (entry : String) (functions : Option (List (String × List (Expr SymbolRef))))
    (stream : List (Expr SymbolRef)) (known : ∀ e ∈ stream, e.known = true) :
    let job : Job :=
      { settings
        stream := stream.map symbols.resolve
        entry := some entry
        functions := functions.map (·.map fun f => (f.1, f.2.map symbols.resolve))
        isDispatch }
    ∃ (g : Graph) (offsets : OffsetTable) (sites : List EntrySite),
      job.graph = .ok g ∧ OffsetTable.build job.stream = .ok offsets ∧
      sites.Pairwise EntrySite.Before ∧
      (∀ site, site ∈ sites ↔
        isDispatch entry = true ∧ ∃ all ∈ functions, site.Stands symbols entry all) ∧
      (∀ id node, g.node? id = some node →
        (node.kind = .entry ↔ id < ((entry, 0) :: sites.filterMap EntrySite.entered?).length)) ∧
      (∀ id name start, ((entry, 0) :: sites.filterMap EntrySite.entered?)[id]? = some (name, start) →
        g.Enters job offsets id name start) ∧
      g.reports DiagnosticCode.ofEntry =
        (sites.filter (·.start < 0)).map fun site =>
          .negativeEntry site.name entry site.start.toInt := by
  intro job
  have jobKnown : ∀ e ∈ job.stream, e.known = true := by simpa [job] using known
  have blank : ({} : Build).Records job.settings (fun _ => False) [] [] [] :=
    .of_values (.empty _ fun _ => False) (.refl {})
  obtain ⟨offsets, b, kept, pairs, built, run, done, _⟩ :=
    job.run_of_known {} (addEntries_recorded job blank) jobKnown
  have quiet : b.graph.reports DiagnosticCode.ofJump = [] :=
    (addStream_reports run).trans (addEntries_reports rfl job {})
  obtain ⟨sites, ordered, stands, calls⟩ := job.exists_sites entry rfl
  have starts : job.entryStarts = (entry, 0) :: sites.filterMap EntrySite.entered? := by
    rw [Job.entryStarts_eq rfl, calls, List.filterMap_map]
    rfl
  refine ⟨_, offsets, sites, Job.finish_of_run built run, built, ordered, stands,
    fun id node found => ⟨fun isEntry => ?_, fun early => ?_⟩, fun id name start listed => ?_, ?_⟩
  · rcases done.recorded found (by simp [isEntry]) with ⟨start, member, rfl, _⟩ | ⟨_, _, _, kind, _⟩
    · rw [← starts]
      exact (List.getElem?_eq_some_iff.mp (entriesFrom_mem member).2).1
    · rw [isEntry] at kind
      cases kind
  · rw [← starts] at early
    have listed := entriesFrom_getElem? job.entryStarts 0 id
    rw [List.getElem?_eq_getElem early, Option.map_some, Nat.zero_add] at listed
    have shown := done.entry_node (List.mem_of_getElem? listed)
    rw [found] at shown
    cases shown
    rfl
  · rw [← starts] at listed
    have recorded := entriesFrom_getElem? job.entryStarts 0 id
    rw [listed, Option.map_some, Nat.zero_add] at recorded
    exact done.enters quiet built (List.mem_of_getElem? recorded)
  · have remarks := addEntries_remarks job rfl {}
    have negative (site : EntrySite) : site.call.2 < 0 ↔ site.start < 0 := by
      rw [Int32.lt_iff_toInt_lt]
      rfl
    rw [done.records.resolve_silent rfl rfl, addStream_silent rfl rfl rfl run, remarks, calls,
      List.filter_map, List.map_map]
    simp only [Function.comp_def, negative]
    rfl

/-- A shared body that one function enters at its second instruction, one at a negative offset and
one by a call nested in a return, which does not count. -/
theorem entries_exact_dispatch :
    let symbols : Symbols := SymbolTable.symbols
      { objects := ⟨[(12, "Actor.ExecuteUbergraph"), (13, "Other")]⟩ }
    let call (target : SymbolRef) (start : Int32) : Expr SymbolRef :=
      .variadic (.call .final target) [.atom (.int start)]
    let stream : List (Expr SymbolRef) :=
      [.atom (.marker .nothing), .atom (.marker .endOfScript)]
    let functions : List (String × List (Expr SymbolRef)) :=
      [("PrintHello", [call 13 0, call 12 1]), ("Tick", [call 12 (-5)]),
        ("Wait", [.unary (.wrap .returnValue) (call 12 0)])]
    (∀ e ∈ stream, e.known = true) ∧
      ∃ g t, Job.graph
          { stream := stream.map symbols.resolve
            entry := some "ExecuteUbergraph"
            functions := some (functions.map fun f => (f.1, f.2.map symbols.resolve))
            isDispatch := fun _ => true } = .ok g ∧
        (∃ id, g.node? id = some (Entry.shown ⟨id, "PrintHello", 1⟩) ∧
          ⟨.execution, id, thenPin, t, executePin⟩ ∈ g.edges) ∧
        g.IsInstruction t 1 ∧
        .negativeEntry "Tick" "ExecuteUbergraph" (-5) ∈ g.reports DiagnosticCode.ofEntry := by
  intro symbols call stream functions
  have known : ∀ e ∈ stream, e.known = true := by simp [stream, Expr.known, Atom.known]
  obtain ⟨g, offsets, sites, graph, built, _, stands, _, enters, remarks⟩ :=
    entries_exact symbols {} (fun _ => true) "ExecuteUbergraph" (some functions) stream known
  have first : ⟨0, 1, "PrintHello", 1⟩ ∈ sites :=
    (stands _).mpr ⟨rfl, functions, rfl, _, 12, rfl, rfl, by decide⟩
  have second : ⟨1, 0, "Tick", -5⟩ ∈ sites :=
    (stands _).mpr ⟨rfl, functions, rfl, _, 12, rfl, rfl, by decide⟩
  have entered : ("PrintHello", 1) ∈
      ("ExecuteUbergraph", 0) :: sites.filterMap EntrySite.entered? :=
    List.mem_cons_of_mem _ (List.mem_filterMap.mpr ⟨_, first, rfl⟩)
  obtain ⟨id, listed⟩ := List.mem_iff_getElem?.mp entered
  have entry := enters id _ _ listed
  obtain ⟨t, stands, edge⟩ := entry.connected rfl rfl 1 (by
    rw [OffsetTable.offsetOf?_eq (by simpa using known) built]
    decide)
  refine ⟨known, g, t, graph, ⟨id, entry.node, edge⟩, stands, ?_⟩
  rw [remarks]
  exact List.mem_map.mpr ⟨_, List.mem_filter.mpr ⟨second, by decide⟩, by decide⟩

end ScriptFlow
