import ScriptFlow.Graph.Job
import ScriptFlow.Proofs.Flow.Instruction

/-! The construction as a whole. Entries come first, then each instruction in turn is folded away or
gets a node. What has been done so far is recorded in three lists: the entries, the instructions with
their nodes, and the pairs of offsets that were folded. The build holds exactly what these lists say,
whichever step comes next. -/
namespace ScriptFlow

variable {settings : DecodeSettings} {isOpen : NodeId → Prop}

/-- A function entry with its node. -/
structure Entry where
  node : NodeId
  name : String
  /-- The offset at which the function starts. -/
  start : Nat

/-- The node of an entry. -/
def Entry.shown (entry : Entry) : Node :=
  { id := entry.node, label := entry.name, kind := .entry, pins := [⟨thenPin, .output, .execution⟩] }

/-- An instruction with its node. -/
structure Kept where
  node : NodeId
  instruction : Instruction String

/-- The parts of an instruction with a node. -/
def Kept.parts (settings : DecodeSettings) (k : Kept) : List ExecPart :=
  k.instruction.expr.execParts settings

/-- The node of an instruction has its title and its parts. -/
def Graph.Presents (g : Graph) (settings : DecodeSettings) (values : List (Expr String × NodeId))
    (k : Kept) : Prop :=
  g.Equipped values k.node k.instruction.offset
    (Build.instructionLabel k.instruction.offset
      ((k.instruction.title settings).getD k.instruction.expr.tokenName))
    (k.instruction.title settings).isNone (k.parts settings)

/-- The jumps that entries and instructions owe, in the order in which they got their nodes. -/
def owedBy (settings : DecodeSettings) (entries : List Entry) (kept : List Kept) :
    List Obligation :=
  entries.map (fun entry => ⟨entry.node, thenPin, entry.start⟩) ++
    kept.flatMap fun k => k.instruction.owes k.node (k.parts settings)

/-- A build holds the given entries and instructions, has folded the given pairs, and has connected
no output yet. -/
structure Build.Records (settings : DecodeSettings) (isOpen : NodeId → Prop) (entries : List Entry)
    (kept : List Kept) (pairs : List (Nat × Nat)) (b : Build) : Prop where
  shares : Shares settings.mode isOpen b.graph b.values
  accounts : b.jumps.Accounts pairs (owedBy settings entries kept)
  execNodes : b.execNodes = kept.map fun k => (k.instruction.position, k.node)
  entry : ∀ entry ∈ entries, b.graph.node? entry.node = some entry.shown
  instruction : ∀ k ∈ kept, b.graph.Presents settings b.values k
  /-- There are no other nodes but values. -/
  complete : ∀ id node, b.graph.node? id = some node → node.kind ≠ .value →
    id ∈ entries.map (·.node) ++ kept.map (·.node)
  flowless : ∀ edge ∈ b.graph.edges, edge.kind ≠ .execution
  /-- All edges carry results, and none of them to an entry. -/
  carries : ∀ edge ∈ b.graph.edges,
    edge.sourcePin = resultPin ∧ edge.target ∉ entries.map (·.node)
  /-- Entries and instructions got their nodes one after the other. -/
  ordered : (entries.map (·.node) ++ kept.map (·.node)).Pairwise (· < ·)

namespace Build.Records

variable {entries : List Entry} {kept : List Kept} {pairs : List (Nat × Nat)} {b after : Build}

/-- A build that holds only values. -/
theorem of_values (shared : Shares settings.mode isOpen b.graph b.values)
    (values : Build.Keeps {} b) : b.Records settings isOpen [] [] [] where
  shares := shared
  accounts := by
    rw [values.jumps]
    exact .empty
  execNodes := values.execNodes
  entry := by simp
  instruction := by simp
  complete id node found kind :=
    ((values.added id node (Nat.zero_le _) found).elim kind False.elim).elim
  flowless edge member execution := by
    obtain ⟨new, appended, intoNew⟩ := values.edges
    rw [← Array.mem_toList_iff, appended] at member
    rw [(intoNew edge (by simpa using member)).1] at execution
    cases execution
  carries edge member := by
    obtain ⟨new, appended, intoNew⟩ := values.edges
    rw [← Array.mem_toList_iff, appended] at member
    exact ⟨(intoNew edge (by simpa using member)).2.1, by simp⟩
  ordered := .nil

/-- Every entry and every instruction has a node of its own. -/
theorem distinct (records : b.Records settings isOpen entries kept pairs) :
    (entries.map (·.node) ++ kept.map (·.node)).Nodup :=
  records.ordered.imp Nat.ne_of_lt

theorem node_lt (records : b.Records settings isOpen entries kept pairs) {id : NodeId}
    (member : id ∈ entries.map (·.node) ++ kept.map (·.node)) : id < b.graph.nextId := by
  rcases List.mem_append.mp member with member | member
  · obtain ⟨entry, entryMember, rfl⟩ := List.mem_map.mp member
    exact Graph.node?_lt (records.entry entry entryMember)
  · obtain ⟨k, keptMember, rfl⟩ := List.mem_map.mp member
    exact Graph.node?_lt (records.instruction k keptMember).node

/-- What was recorded stays as it is while a build grows. -/
theorem kept_of_grows {expected : NodeId → Prop}
    (records : b.Records settings isOpen entries kept pairs) (grows : b.Grows expected after) :
    (∀ entry ∈ entries, after.graph.node? entry.node = some entry.shown) ∧
      ∀ k ∈ kept, after.graph.Presents settings after.values k := by
  refine ⟨fun entry member => ?_, fun k member => ?_⟩
  · have inside := records.node_lt (List.mem_append_left _ (List.mem_map_of_mem member))
    exact (grows.nodes _ inside).trans (records.entry entry member)
  · have inside := records.node_lt (List.mem_append_right _ (List.mem_map_of_mem member))
    exact (records.instruction k member).mono grows.values.subset (grows.nodes _ inside)
      (grows.dataSources inside)

theorem flowless_of_grows {expected : NodeId → Prop}
    (records : b.Records settings isOpen entries kept pairs) (grows : b.Grows expected after) :
    ∀ edge ∈ after.graph.edges, edge.kind ≠ .execution := by
  obtain ⟨new, appended, intoNew⟩ := grows.edges
  intro edge member execution
  rw [← Array.mem_toList_iff, appended] at member
  rcases List.mem_append.mp member with member | member
  · exact records.flowless edge (Array.mem_toList_iff.mp member) execution
  · rw [(intoNew edge member).1] at execution
    cases execution

private theorem carries_of_grows {expected : NodeId → Prop}
    (records : b.Records settings isOpen entries kept pairs) (grows : b.Grows expected after) :
    ∀ edge ∈ after.graph.edges, edge.sourcePin = resultPin ∧ edge.target ∉ entries.map (·.node) := by
  obtain ⟨new, appended, intoNew⟩ := grows.edges
  intro edge member
  rw [← Array.mem_toList_iff, appended] at member
  rcases List.mem_append.mp member with member | member
  · exact records.carries edge (Array.mem_toList_iff.mp member)
  · obtain ⟨_, fromResult, isNew⟩ := intoNew edge member
    refine ⟨fromResult, fun entry => ?_⟩
    have early := records.node_lt (List.mem_append_left _ entry)
    exact Nat.not_lt_of_le isNew early

/-- All nodes but values are recorded, if only the next one and values are new. -/
theorem complete_of_grows (records : b.Records settings isOpen entries kept pairs)
    (grows : b.Grows (· = b.graph.nextId) after) {id : NodeId} {node : Node}
    (found : after.graph.node? id = some node) (kind : node.kind ≠ .value) :
    id ∈ entries.map (·.node) ++ kept.map (·.node) ∨ id = b.graph.nextId := by
  by_cases inside : id < b.graph.nextId
  · rw [grows.nodes id inside] at found
    exact .inl (records.complete id node found kind)
  · exact .inr ((grows.added id node (Nat.le_of_not_lt inside) found).resolve_left kind)

/-- The next node comes after those recorded. -/
theorem ordered_nextId (records : b.Records settings isOpen entries kept pairs) :
    (entries.map (·.node) ++ kept.map (·.node) ++ [b.graph.nextId]).Pairwise (· < ·) := by
  rw [List.pairwise_append]
  refine ⟨records.ordered, List.pairwise_singleton .., fun id member last isLast => ?_⟩
  rw [List.mem_singleton.mp isLast]
  exact records.node_lt member

theorem diagnose (records : b.Records settings isOpen entries kept pairs) (d : Diagnostic) :
    (b.onGraph (·.diagnose d)).Records settings isOpen entries kept pairs where
  shares := records.shares.diagnose d
  accounts := records.accounts
  execNodes := records.execNodes
  entry := records.entry
  instruction k member :=
    (records.instruction k member).mono (List.Subset.refl _) rfl fun _ => rfl
  complete := records.complete
  flowless := records.flowless
  carries := records.carries
  ordered := records.ordered

/-- A folded instruction leaves only a pair of offsets. -/
theorem fold (records : b.Records settings isOpen entries kept pairs) {source target : Nat}
    {jumps : JumpTable} (fresh : ∀ y, (source, y) ∉ pairs)
    (merged : b.jumps.merge? source target = some jumps) :
    ({ b with jumps } : Build).Records settings isOpen entries kept
      (pairs ++ [(source, target)]) where
  shares := records.shares
  accounts := records.accounts.merge fresh merged
  execNodes := records.execNodes
  entry := records.entry
  instruction := records.instruction
  complete := records.complete
  flowless := records.flowless
  carries := records.carries
  ordered := records.ordered

/-- An instruction that gets a node is recorded with it. -/
theorem addInstruction (records : b.Records settings isOpen entries kept pairs)
    {i : Instruction String} (known : i.expr.known = true) :
    ∃ after, b.addInstruction settings i.position i.offset i.expr.bytes i.expr = .ok after ∧
      after.Records settings isOpen entries (kept ++ [⟨b.graph.nextId, i⟩]) pairs ∧
      b.Grows (· = b.graph.nextId) after := by
  obtain ⟨after, run, working⟩ := addInstruction_working known records.shares records.accounts
  obtain ⟨entry, instruction⟩ := records.kept_of_grows working.grows
  refine ⟨after, run, ⟨working.shares, ?_, ?_, entry, ?_, ?_,
    records.flowless_of_grows working.grows, records.carries_of_grows working.grows, ?_⟩,
    working.grows⟩
  · simpa [owedBy, Kept.parts] using working.accounts
  · rw [working.execNodes, records.execNodes, List.map_append]
    rfl
  · intro k member
    rcases List.mem_append.mp member with member | member
    · exact instruction k member
    · rw [List.mem_singleton.mp member]
      exact working.equipped
  · intro id node found kind
    rw [List.map_append, ← List.append_assoc, List.mem_append]
    refine (records.complete_of_grows working.grows found kind).imp_right fun last => ?_
    simp [last]
  · rw [List.map_append, ← List.append_assoc]
    exact records.ordered_nextId

/-- An entry is recorded with its node; entries come before all instructions. -/
theorem addEntry (records : b.Records settings isOpen entries [] pairs) (name : String)
    (start : Nat) :
    (b.addEntry name start).Records settings isOpen
      (entries ++ [⟨b.graph.nextId, name, start⟩]) [] pairs := by
  have node : (b.addEntry name start).graph.node? b.graph.nextId =
      some (Entry.shown ⟨b.graph.nextId, name, start⟩) := by
    simp [Build.addEntry, Graph.addPin_eq_modifyNode, Node.withPin, Node.pin?, Node.pushPin,
      Entry.shown]
  have grows : b.Grows (· = b.graph.nextId) (b.addEntry name start) := by
    have opened : b.Grows (· = b.graph.nextId) (b.onGraph (·.addNode name .entry)) :=
      (Grows.refl b).addNode name (.inr rfl)
    exact (opened.addPin (Nat.le_refl _) thenPin .output .execution).same rfl rfl rfl
  obtain ⟨entry, instruction⟩ := records.kept_of_grows grows
  refine ⟨?_, ?_, records.execNodes, ?_, instruction, ?_, records.flowless_of_grows grows,
    fun edge member => ?_, ?_⟩
  · have opened := records.shares.addNode name (show NodeKind.entry ≠ .value by decide)
    have found : (b.graph.addNode name .entry).node? b.graph.nextId =
        some { id := b.graph.nextId, label := name, kind := .entry } := by simp
    exact opened.addPin (opened.aside found (by simp)) thenPin .output .execution
  · have registered := records.accounts.register b.graph.nextId thenPin start
    simpa [owedBy, Build.addEntry] using registered
  · intro other member
    rcases List.mem_append.mp member with member | member
    · exact entry other member
    · rw [List.mem_singleton.mp member]
      exact node
  · intro id node found kind
    have recorded := records.complete_of_grows grows found kind
    simpa using recorded
  · have old : edge ∈ b.graph.edges := by simpa [Build.addEntry] using member
    obtain ⟨fromResult, elsewhere⟩ := records.carries edge old
    have data : edge.kind = .data := by
      cases kind : edge.kind with
      | data => rfl
      | execution => exact absurd kind (records.flowless edge old)
    have early : edge.target ≠ b.graph.nextId :=
      Nat.ne_of_lt (records.shares.inside edge old data)
    refine ⟨fromResult, ?_⟩
    rw [List.map_append, List.mem_append, not_or]
    exact ⟨elsewhere, by simpa using early⟩
  · have ordered := records.ordered_nextId
    rw [List.map_nil, List.append_nil] at ordered ⊢
    rw [List.map_append]
    exact ordered

end Build.Records

/-! ### Entries -/

/-- The function that makes a call and the offset at which it enters, unless that is negative. -/
def entryStart? (call : String × Int) : Option (String × Nat) := call.2.toNat?.map (call.1, ·)

/-- The functions that enter a stream, each with the offset at which it starts: the function itself
at zero and, for a shared body, the callers that enter it. -/
def Job.entryStarts (job : Job) : List (String × Nat) :=
  match job.entry with
  | none => []
  | some entry => (entry, 0) ::
    match job.isDispatch entry, job.functions with
    | true, some functions => (Job.entryCalls entry functions).filterMap entryStart?
    | _, _ => []

/-- Entries whose nodes come one after the other. -/
def entriesFrom (node : NodeId) : List (String × Nat) → List Entry
  | [] => []
  | (name, start) :: rest => ⟨node, name, start⟩ :: entriesFrom (node + 1) rest

private theorem nextId_addEntry (b : Build) (name : String) (start : Nat) :
    (b.addEntry name start).graph.nextId = b.graph.nextId + 1 := by
  simp [Build.addEntry]

private theorem foldl_addEntryCall_records (name : String) (calls : List (String × Int))
    {b : Build} {entries : List Entry} (records : b.Records settings isOpen entries [] []) :
    (calls.foldl (Job.addEntryCall name) b).Records settings isOpen
      (entries ++ entriesFrom b.graph.nextId (calls.filterMap entryStart?)) [] [] := by
  induction calls generalizing b entries with
  | nil => simpa [entriesFrom] using records
  | cons call rest ih =>
    obtain ⟨function, start⟩ := call
    cases start with
    | ofNat start =>
      have next := ih (records.addEntry function start)
      rw [nextId_addEntry, List.append_assoc] at next
      exact next
    | negSucc n => exact ih (records.diagnose _)

/-- The entries of a function are recorded in their order. -/
theorem addEntries_recorded (job : Job) {b : Build} (records : b.Records settings isOpen [] [] []) :
    (job.addEntries b).Records settings isOpen (entriesFrom b.graph.nextId job.entryStarts) [] [] := by
  unfold Job.addEntries Job.entryStarts
  cases job.entry with
  | none => exact records
  | some name =>
    have own := records.addEntry name 0
    dsimp only
    cases job.isDispatch name with
    | false => exact own
    | true =>
      cases job.functions with
      | none => exact own
      | some functions =>
        have all := foldl_addEntryCall_records name (Job.entryCalls name functions) own
        rw [nextId_addEntry] at all
        exact all

/-- The entries of a function are recorded, and their list does not depend on how instructions are
decoded. -/
theorem addEntries_records (job : Job) (b : Build) :
    ∃ entries, ∀ settings isOpen, b.Records settings isOpen [] [] [] →
      (job.addEntries b).Records settings isOpen entries [] [] :=
  ⟨_, fun _ _ records => addEntries_recorded job records⟩

/-! ### Instructions -/

/-- Each instruction in turn is kept or folded away; a folded one leaves its offset and the offset
that stands in for it. One that the settings fold is kept only if the chain from its target leads
back to it. -/
inductive Sifts (settings : DecodeSettings) :
    List (Instruction String) → List (Instruction String) → List (Nat × Nat) → Prop
  | nil : Sifts settings [] [] []
  | keep {all kept : List (Instruction String)} {pairs : List (Nat × Nat)}
    (i : Instruction String) (sifts : Sifts settings all kept pairs)
    (returns : ∀ target, Build.foldTarget? settings i.offset i.expr.bytes i.expr = some target →
      JumpTable.Arrives pairs target i.offset) :
    Sifts settings (all ++ [i]) (kept ++ [i]) pairs
  | fold {all kept : List (Instruction String)} {pairs : List (Nat × Nat)} {target : Nat}
    (i : Instruction String) (sifts : Sifts settings all kept pairs)
    (folded : Build.foldTarget? settings i.offset i.expr.bytes i.expr = some target) :
    Sifts settings (all ++ [i]) kept (pairs ++ [(i.offset, target)])

/-- A folded offset is that of an instruction. -/
theorem Sifts.mem_of_pair {all kept : List (Instruction String)} {pairs : List (Nat × Nat)}
    (sifts : Sifts settings all kept pairs) {x y : Nat} (pair : (x, y) ∈ pairs) :
    ∃ i ∈ all, i.offset = x ∧ Build.foldTarget? settings i.offset i.expr.bytes i.expr = some y := by
  induction sifts with
  | nil => cases pair
  | keep i sifts returns ih =>
    obtain ⟨j, member, found⟩ := ih pair
    exact ⟨j, List.mem_append_left _ member, found⟩
  | fold i sifts folded ih =>
    rcases List.mem_append.mp pair with pair | pair
    · obtain ⟨j, member, found⟩ := ih pair
      exact ⟨j, List.mem_append_left _ member, found⟩
    · cases List.mem_singleton.mp pair
      exact ⟨i, by simp, rfl, folded⟩

/-- One step of the construction keeps an instruction or folds it away, and records which. -/
private theorem addOrFold_records {entries : List Entry} {kept : List Kept}
    {pairs : List (Nat × Nat)}
    {b : Build} (records : b.Records settings isOpen entries kept pairs)
    {all : List (Instruction String)} (sifts : Sifts settings all (kept.map (·.instruction)) pairs)
    {i : Instruction String} (known : i.expr.known = true) (later : ∀ j ∈ all, j.offset < i.offset) :
    ∃ after kept' pairs',
      b.addOrFold settings i.position i.offset i.expr.bytes i.expr = .ok after ∧
      after.Records settings isOpen entries kept' pairs' ∧
      Sifts settings (all ++ [i]) (kept'.map (·.instruction)) pairs' ∧
      b.Grows (fun _ => True) after := by
  have fresh (y : Nat) : (i.offset, y) ∉ pairs := by
    intro pair
    obtain ⟨j, member, same, _⟩ := sifts.mem_of_pair pair
    exact Nat.ne_of_lt (later j member) same
  have keep {c : Build} (records : c.Records settings isOpen entries kept pairs)
      (same : b.Grows (fun _ => True) c)
      (returns : ∀ target, Build.foldTarget? settings i.offset i.expr.bytes i.expr = some target →
        JumpTable.Arrives pairs target i.offset) :
      ∃ after kept' pairs',
        c.addInstruction settings i.position i.offset i.expr.bytes i.expr = .ok after ∧
        after.Records settings isOpen entries kept' pairs' ∧
        Sifts settings (all ++ [i]) (kept'.map (·.instruction)) pairs' ∧
        b.Grows (fun _ => True) after := by
    obtain ⟨after, run, recorded, grows⟩ := records.addInstruction known
    refine ⟨after, _, pairs, run, recorded, ?_, same.trans (grows.imp fun _ _ => trivial)⟩
    rw [List.map_append]
    exact .keep i sifts returns
  unfold Build.addOrFold
  split
  · rename_i unfolded
    refine keep records (.refl b) fun target folded => ?_
    rw [unfolded] at folded
    cases folded
  · rename_i target folded
    split
    · rename_i jumps merged
      exact ⟨_, kept, _, rfl, records.fold fresh merged, .fold i sifts folded,
        (Build.Grows.refl b).same rfl rfl rfl⟩
    · rename_i refused
      refine keep (records.diagnose _) ((Build.Grows.refl b).diagnose _) fun target' folded' => ?_
      rw [folded, Option.some.injEq] at folded'
      subst folded'
      rcases (JumpTable.merge?_eq_none records.accounts.flat).mp refused with rfl | back
      · exact .stay fresh
      · exact back ▸ records.accounts.ends target

/-- The construction records every instruction of a known stream as kept or folded. -/
theorem addStream_records {entries : List Entry} {kept : List Kept} {pairs : List (Nat × Nat)}
    {b : Build} (records : b.Records settings isOpen entries kept pairs)
    {all : List (Instruction String)} (sifts : Sifts settings all (kept.map (·.instruction)) pairs)
    {stream : List (Expr String)} (known : ∀ e ∈ stream, e.known = true) (position offset : Nat)
    (later : ∀ j ∈ all, j.offset < offset) :
    ∃ after kept' pairs', Build.addStream settings position offset stream b = .ok after ∧
      after.Records settings isOpen entries kept' pairs' ∧
      Sifts settings (all ++ instructionsFrom position offset stream)
        (kept'.map (·.instruction)) pairs' ∧
      b.Grows (fun _ => True) after := by
  induction stream generalizing b kept pairs all position offset with
  | nil => exact ⟨b, kept, pairs, rfl, records, by simpa [instructionsFrom] using sifts, .refl b⟩
  | cons e rest ih =>
    have eKnown : e.known = true := known e (by simp)
    obtain ⟨next, keptNext, pairsNext, step, recordsNext, siftsNext, growsNext⟩ :=
      addOrFold_records (i := ⟨position, offset, e⟩) records sifts eKnown later
    change b.addOrFold settings position offset e.bytes e = .ok next at step
    have laterNext (j : Instruction String) (member : j ∈ all ++ [⟨position, offset, e⟩]) :
        j.offset < offset + e.bytes := by
      have far := Nat.lt_add_of_pos_right (bytes_pos eKnown) (n := offset)
      rcases List.mem_append.mp member with member | member
      · exact Nat.lt_trans (later j member) far
      · rw [List.mem_singleton.mp member]
        exact far
    obtain ⟨after, keptAfter, pairsAfter, run, recordsAfter, siftsAfter, growsAfter⟩ :=
      ih recordsNext siftsNext (fun e member => known e (by simp [member])) (position + 1)
        (offset + e.bytes) laterNext
    refine ⟨after, keptAfter, pairsAfter, ?_, recordsAfter, ?_, growsNext.trans growsAfter⟩
    · simp only [Build.addStream, size_of_known eKnown, bind, Except.bind, step]
      exact run
    · simpa [instructionsFrom] using siftsAfter

/-! ### What every construction keeps -/

section Preservation

variable (holds : Build → Prop)

/-- What an entry keeps, and the remark on a negative offset, all entries keep. -/
theorem addEntries_preserves (entered : ∀ b name start, holds b → holds (b.addEntry name start))
    (remarked : ∀ b name entry start, holds b →
      holds (b.onGraph (·.diagnose (.negativeEntry name entry start))))
    (job : Job) {b : Build} (before : holds b) : holds (job.addEntries b) := by
  have called (name : String) (calls : List (String × Int)) {b : Build} (before : holds b) :
      holds (calls.foldl (Job.addEntryCall name) b) := by
    induction calls generalizing b with
    | nil => exact before
    | cons call rest ih =>
      obtain ⟨function, start⟩ := call
      cases start with
      | ofNat start => exact ih (entered b function start before)
      | negSucc n => exact ih (remarked b function name _ before)
  unfold Job.addEntries
  split
  · exact before
  · rename_i name _
    dsimp only
    split
    · exact called name _ (entered b name 0 before)
    · exact entered b name 0 before

/-- What the instructions of a stream keep, a fold and the remark on a refused one, the whole stream
keeps. -/
theorem addStream_preserves_of_mem {stream : List (Expr String)}
    (instruction : ∀ b after position offset size, ∀ e ∈ stream, holds b →
      b.addInstruction settings position offset size e = .ok after → holds after)
    (folded : ∀ (b : Build) jumps, holds b → holds { b with jumps })
    (remarked : ∀ b offset target, holds b →
      holds (b.onGraph (·.diagnose (.aliasCycle offset target))))
    {position offset : Nat} {b after : Build} (before : holds b)
    (run : Build.addStream settings position offset stream b = .ok after) : holds after := by
  induction stream generalizing b position offset with
  | nil =>
    cases run
    exact before
  | cons e rest ih =>
    rw [Build.addStream] at run
    have first := fun b after position offset size =>
      instruction b after position offset size e (List.mem_cons_self ..)
    cases sized : e.size with
    | error gap => simp [sized, bind, Except.bind] at run
    | ok size =>
      cases step : b.addOrFold settings position offset size e with
      | error gap => simp [sized, step, bind, Except.bind] at run
      | ok next =>
        simp only [sized, step, bind, Except.bind] at run
        refine ih (fun b after position offset size other member =>
          instruction b after position offset size other (List.mem_cons_of_mem _ member)) ?_ run
        unfold Build.addOrFold at step
        split at step
        · exact first _ _ _ _ _ before step
        · split at step
          · cases step
            exact folded b _ before
          · exact first _ _ _ _ _ (remarked b _ _ before) step

/-- What an instruction keeps, a fold and the remark on a refused one, a whole stream keeps. -/
theorem addStream_preserves
    (instruction : ∀ b after position offset size e, holds b →
      b.addInstruction settings position offset size e = .ok after → holds after)
    (folded : ∀ (b : Build) jumps, holds b → holds { b with jumps })
    (remarked : ∀ b offset target, holds b →
      holds (b.onGraph (·.diagnose (.aliasCycle offset target))))
    {stream : List (Expr String)} {position offset : Nat} {b after : Build} (before : holds b)
    (run : Build.addStream settings position offset stream b = .ok after) : holds after :=
  addStream_preserves_of_mem holds
    (fun b after position offset size e _ => instruction b after position offset size e)
    folded remarked before run

end Preservation

end ScriptFlow
