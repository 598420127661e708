import Mathlib.Data.Set.Finite.Lattice
import Mathlib.Data.Set.Finite.List
import Mathlib.Order.Lattice.Nat
import ScriptFlow.Proofs.Flow.Modes
import ScriptFlow.Proofs.Flow.Warnings
import ScriptFlow.Proofs.Jump.Interleaving

/-! Cycles of folded instructions. What the settings fold away sends its callers on to another offset,
and following these steps may lead in a circle. The construction does not look for circles: it refuses
a fold when the folds accepted before lead back to it. That comes to the same as keeping the last
instruction of each circle and no other, because all the others were accepted by then. -/
namespace ScriptFlow

/-! ### Cycles of a relation on offsets -/

section Cycles

open Relation

variable {step : Nat → Nat → Prop} {x y : Nat}

/-- The last offset of a cycle. -/
def LastOfCycle (step : Nat → Nat → Prop) (x : Nat) : Prop :=
  TransGen step x x ∧ ∀ y, TransGen step x y → TransGen step y x → y ≤ x

/-- Where each offset has one step at most, whatever a cycle leads to is part of it. -/
theorem returns_of_cycle (functional : Relator.RightUnique step) (cycle : TransGen step x x)
    (leads : ReflTransGen step x y) : ReflTransGen step y x := by
  induction leads using ReflTransGen.head_induction_on with
  | refl => exact .refl
  | @head x z first rest ih =>
    obtain ⟨z', first', back⟩ := TransGen.head'_iff.mp cycle
    have same := functional first first'
    subst same
    exact (ih (.tail' back first)).trans back

/-- The last offsets of a cycle are the same from wherever it is entered. -/
theorem LastOfCycle.le (functional : Relator.RightUnique step) (last : LastOfCycle step x)
    (leads : ReflTransGen step x y) : y ≤ x := by
  have back := returns_of_cycle functional last.1 leads
  exact last.2 y (last.1.trans_left leads) (last.1.trans_right back)

/-- Every cycle has exactly one last offset, if there are only finitely many steps. -/
theorem existsUnique_lastOfCycle (functional : Relator.RightUnique step)
    (finite : {x | ∃ y, step x y}.Finite) (cycle : TransGen step x x) :
    ∃! last, ReflTransGen step x last ∧ LastOfCycle step last := by
  have around {y : Nat} (leads : ReflTransGen step x y) : TransGen step y y :=
    TransGen.trans_right (returns_of_cycle functional cycle leads) (cycle.trans_left leads)
  have above : BddAbove {y | ReflTransGen step x y} := by
    refine finite.bddAbove.mono fun y leads => ?_
    obtain ⟨z, first, _⟩ := TransGen.head'_iff.mp (around leads)
    exact ⟨z, first⟩
  have reached : ReflTransGen step x (sSup {y | ReflTransGen step x y}) :=
    Nat.sSup_mem (s := {y | ReflTransGen step x y}) ⟨x, .refl⟩ above
  refine ⟨_, ⟨reached, around reached, fun y leads _ => ?_⟩, ?_⟩
  · exact le_csSup above (reached.trans leads.to_reflTransGen)
  · rintro other ⟨leads, last⟩
    apply Nat.le_antisymm
    · exact le_csSup above leads
    · have back := returns_of_cycle functional cycle leads
      exact last.le functional (back.trans reached)

/-- An offset from which steps of earlier offsets lead back to it is the last of its cycle. -/
private theorem lastOfCycle_of_returns (functional : Relator.RightUnique step)
    {earlier : List (Nat × Nat)}
    (steps : ∀ pair ∈ earlier, step pair.1 pair.2 ∧ pair.1 < x) (first : step x y)
    (back : ReflTransGen (JumpTable.Leads earlier) y x) : LastOfCycle step x := by
  have returns : ReflTransGen step y x :=
    ReflTransGen.mono (fun _ _ pair => (steps _ pair).1) _ _ back
  -- Whatever the cycle visits is still on its way back.
  have onTheWay {z : Nat} (leads : TransGen step x z) :
      ReflTransGen (JumpTable.Leads earlier) z x := by
    induction leads with
    | single first' =>
      rw [functional first' first]
      exact back
    | tail leads next way =>
      rcases way.cases_head with rfl | ⟨w, pair, rest⟩
      · rw [functional next first]
        exact back
      · rw [functional next (steps _ pair).1]
        exact rest
  refine ⟨.head' first returns, fun z leads _ => ?_⟩
  rcases (onTheWay leads).cases_head with rfl | ⟨w, pair, _⟩
  · exact Nat.le_refl _
  · exact Nat.le_of_lt (steps _ pair).2

/-- A cycle all of whose steps are listed is a cycle of the list. -/
private theorem cycle_of_listed {pairs : List (Nat × Nat)} (cycle : TransGen step x x)
    (listed : ∀ y z, ReflTransGen step x y → step y z → (y, z) ∈ pairs) :
    TransGen (JumpTable.Leads pairs) x x := by
  have follow {y : Nat} (leads : TransGen step x y) : TransGen (JumpTable.Leads pairs) x y := by
    induction leads with
    | single first => exact .single (listed _ _ .refl first)
    | tail leads next ih => exact ih.tail (listed _ _ leads.to_reflTransGen next)
  exact follow cycle

end Cycles

/-! ### Where folded instructions send their callers -/

/-- One instruction, if the settings fold it, sends its callers on to an offset: a tracepoint to the
byte after it, a jump to its target. -/
inductive Job.FoldsTo (job : Job) : Nat → Nat → Prop
  | tracepoint {i : Instruction String} (member : i ∈ instructions job.stream)
    (marks : i.expr = .atom (.marker .tracepoint) ∨ i.expr = .atom (.marker .wireTracepoint))
    (folds : job.settings.foldTracepoints = true) : FoldsTo job i.offset (i.offset + 1)
  | jump {i : Instruction String} {target : UInt32} (member : i ∈ instructions job.stream)
    (jumps : i.expr = .atom (.jump target)) (folds : job.settings.foldJumps = true) :
    FoldsTo job i.offset target.toNat

/-- Folding is decided for each instruction from the settings and the instruction alone. -/
theorem Job.foldsTo_iff (job : Job) (x y : Nat) :
    job.FoldsTo x y ↔ ∃ i ∈ instructions job.stream, i.offset = x ∧
      Build.foldTarget? job.settings i.offset i.expr.bytes i.expr = some y := by
  constructor
  · rintro (⟨member, marks, folds⟩ | ⟨member, jumps, folds⟩)
    · refine ⟨_, member, rfl, ?_⟩
      rcases marks with marks | marks
      · rw [marks]
        exact if_pos folds
      · rw [marks]
        exact if_pos folds
    · refine ⟨_, member, rfl, ?_⟩
      rw [jumps]
      exact if_pos folds
  · rintro ⟨i, member, rfl, folded⟩
    unfold Build.foldTarget? at folded
    split at folded
    · rename_i marks
      obtain ⟨folds, same⟩ := Option.ite_none_right_eq_some.mp folded
      cases same
      have byte : i.expr.bytes = 1 := by rw [marks]; rfl
      rw [byte]
      exact .tracepoint member (.inl marks) folds
    · rename_i marks
      obtain ⟨folds, same⟩ := Option.ite_none_right_eq_some.mp folded
      cases same
      have byte : i.expr.bytes = 1 := by rw [marks]; rfl
      rw [byte]
      exact .tracepoint member (.inr marks) folds
    · rename_i target jumps
      obtain ⟨folds, same⟩ := Option.ite_none_right_eq_some.mp folded
      cases same
      exact .jump member jumps folds
    · cases folded

namespace Job

variable {job : Job}

theorem foldsTo_functional (known : ∀ e ∈ job.stream, e.known = true) :
    Relator.RightUnique job.FoldsTo := by
  intro x y z first second
  obtain ⟨i, member, rfl, folded⟩ := (job.foldsTo_iff x y).mp first
  obtain ⟨j, member', same, folded'⟩ := (job.foldsTo_iff _ z).mp second
  have one : j = i :=
    List.inj_on_of_nodup_map (instructions_offsets_nodup known) member' member same
  rw [one, folded] at folded'
  exact Option.some.inj folded'

/-- Only instructions send their callers on, so there are finitely many steps. -/
private theorem foldsTo_finite (job : Job) : {x | ∃ y, job.FoldsTo x y}.Finite := by
  refine (List.finite_toSet ((instructions job.stream).map (·.offset))).subset ?_
  rintro x ⟨y, folds⟩
  obtain ⟨i, member, rfl, _⟩ := (job.foldsTo_iff x y).mp folds
  exact List.mem_map_of_mem member

/-- The last step of a cycle goes back, so it is a jump. -/
private theorem jump_of_lastOfCycle {x : Nat} (last : LastOfCycle job.FoldsTo x)
    (known : ∀ e ∈ job.stream, e.known = true) :
    ∃ i ∈ instructions job.stream, i.offset = x ∧ ∃ target, i.expr = .atom (.jump target) := by
  obtain ⟨y, first, _⟩ := Relation.TransGen.head'_iff.mp last.1
  have back := last.le (foldsTo_functional known) (.single first)
  cases first with
  | tracepoint member marks folds => exact absurd back (Nat.not_succ_le_self _)
  | jump member jumps folds => exact ⟨_, member, rfl, _, jumps⟩

end Job

/-! ### Kept and folded members of a cycle -/

variable {settings : DecodeSettings} {isOpen : NodeId → Prop} {entries : List Entry}
  {kept : List Kept} {pairs : List (Nat × Nat)} {b : Build} {g : Graph}

/-- From an instruction that is kept although the settings fold it, folds of earlier offsets lead
back. -/
theorem Sifts.returns_of_kept {all kept : List (Instruction String)}
    (sifts : Sifts settings all kept pairs)
    (increasing : all.Pairwise fun i j => i.offset < j.offset) {i : Instruction String}
    (member : i ∈ kept) {target : Nat}
    (folds : Build.foldTarget? settings i.offset i.expr.bytes i.expr = some target) :
    ∃ earlier ⊆ pairs, (∀ pair ∈ earlier, pair.1 < i.offset) ∧
      Relation.ReflTransGen (JumpTable.Leads earlier) target i.offset := by
  induction sifts with
  | nil => cases member
  | @keep all kept pairs j sifts returns ih =>
    obtain ⟨before, _, apart⟩ := List.pairwise_append.mp increasing
    rcases List.mem_append.mp member with member | member
    · exact ih before member
    · cases List.mem_singleton.mp member
      refine ⟨pairs, List.Subset.refl _, fun pair isPair => ?_, (returns target folds).reaches⟩
      obtain ⟨k, earlier, same, _⟩ := sifts.mem_of_pair isPair
      rw [← same]
      exact apart k earlier i (List.mem_singleton_self i)
  | fold j sifts folded ih =>
    obtain ⟨before, _, _⟩ := List.pairwise_append.mp increasing
    obtain ⟨earlier, subset, below, back⟩ := ih before member
    exact ⟨earlier, fun pair isPair => List.mem_append_left _ (subset isPair), below, back⟩

namespace Build.Finished

variable {job : Job}

/-- What was folded is what the settings fold. -/
theorem foldsTo_of_pair (done : b.Finished job.settings isOpen job.stream entries kept pairs g)
    {pair : Nat × Nat} (member : pair ∈ pairs) : job.FoldsTo pair.1 pair.2 := by
  obtain ⟨j, isMember, same, folded⟩ := done.sifts.mem_of_pair member
  exact (job.foldsTo_iff _ _).mpr ⟨j, isMember, same, folded⟩

/-- No offset was folded into two others. -/
theorem pairs_functional (done : b.Finished job.settings isOpen job.stream entries kept pairs g) :
    JumpTable.Functional pairs := by
  intro x y z first second
  exact Job.foldsTo_functional done.known (done.foldsTo_of_pair first) (done.foldsTo_of_pair second)

/-- A member of a cycle that has a node is the last of it. -/
theorem last_of_kept (done : b.Finished job.settings isOpen job.stream entries kept pairs g)
    {x y : Nat} (folds : job.FoldsTo x y) (present : g.HasInstruction x) :
    LastOfCycle job.FoldsTo x := by
  obtain ⟨i, inStream, rfl, folded⟩ := (job.foldsTo_iff x y).mp folds
  obtain ⟨k, member, same⟩ := (done.hasInstruction_iff _).mp present
  have one : k.instruction = i := List.inj_on_of_nodup_map (instructions_offsets_nodup done.known)
    (done.mem_instructions member) inStream same
  have increasing := (instructionsFrom_increasing done.known 0 0).imp fun later => later.2
  obtain ⟨earlier, subset, below, back⟩ := done.sifts.returns_of_kept increasing
    (one ▸ List.mem_map_of_mem member) folded
  have steps : ∀ pair ∈ earlier, job.FoldsTo pair.1 pair.2 ∧ pair.1 < i.offset := by
    intro pair isPair
    exact ⟨done.foldsTo_of_pair (subset isPair), below pair isPair⟩
  exact lastOfCycle_of_returns (Job.foldsTo_functional done.known) steps folds back

/-- The last of a cycle has a node: if it had none, all of the cycle would be folded. -/
theorem kept_of_last (done : b.Finished job.settings isOpen job.stream entries kept pairs g)
    {x : Nat} (last : LastOfCycle job.FoldsTo x) : g.HasInstruction x := by
  have functional := Job.foldsTo_functional done.known
  by_contra absent
  have listed (y z : Nat) (leads : Relation.ReflTransGen job.FoldsTo x y) (folds : job.FoldsTo y z) :
      (y, z) ∈ pairs := by
    have gone : ¬ g.HasInstruction y := by
      intro present
      have lastToo := done.last_of_kept folds present
      have back := returns_of_cycle functional last.1 leads
      have same : y = x := Nat.le_antisymm (last.le functional leads) (lastToo.le functional back)
      exact absent (same ▸ present)
    obtain ⟨i, inStream, rfl, folded⟩ := (job.foldsTo_iff y z).mp folds
    rcases done.sifts.kept_or_folded inStream with isKept | ⟨target, pair⟩
    · obtain ⟨k, member, rfl⟩ := List.mem_map.mp isKept
      exact absurd ((done.hasInstruction_iff _).mpr ⟨k, member, rfl⟩) gone
    · rwa [functional folds (done.foldsTo_of_pair pair)]
  have cycle := cycle_of_listed last.1 listed
  exact (done.records.accounts.ends x).acyclic done.pairs_functional cycle

/-- Of the instructions that the settings fold, exactly the last of each cycle have nodes. -/
theorem kept_iff_last (done : b.Finished job.settings isOpen job.stream entries kept pairs g)
    {x y : Nat} (folds : job.FoldsTo x y) :
    g.HasInstruction x ↔ LastOfCycle job.FoldsTo x :=
  ⟨done.last_of_kept folds, done.kept_of_last⟩

end Build.Finished

/-! ### What is reported -/

/-- Whether a report is about a fold that was refused. -/
def DiagnosticCode.ofCycle (code : DiagnosticCode) : Bool := code = .aliasCycle

/-- The remark on an instruction that the settings fold but nothing stands in for. -/
def Instruction.remark? (settings : DecodeSettings) (table : JumpTable) (i : Instruction String) :
    Option Diagnostic :=
  if table.aliases.get? i.offset = none then
    (Build.foldTarget? settings i.offset i.expr.bytes i.expr).map (.aliasCycle i.offset)
  else none

section Construction

variable {after : Build}

/-- One step remarks on the instruction if its fold is refused, and makes no other offset an
alias. -/
private theorem addOrFold_remarks {i : Instruction String}
    (run : b.addOrFold settings i.position i.offset i.expr.bytes i.expr = .ok after)
    (fresh : b.jumps.aliases.get? i.offset = none) :
    after.graph.reports DiagnosticCode.ofCycle =
        b.graph.reports DiagnosticCode.ofCycle ++ (i.remark? settings after.jumps).toList ∧
      ∀ x ≠ i.offset, after.jumps.aliases.get? x = none ↔ b.jumps.aliases.get? x = none := by
  unfold Build.addOrFold at run
  cases folds : Build.foldTarget? settings i.offset i.expr.bytes i.expr with
  | none =>
    rw [folds] at run
    have reports : after.graph.reports DiagnosticCode.ofCycle = _ :=
      addInstruction_reports rfl rfl run
    have aliases := addInstruction_aliases run
    simp [reports, aliases, Instruction.remark?, folds]
  | some target =>
    simp only [folds] at run
    cases merged : b.jumps.merge? i.offset target with
    | none =>
      simp only [merged] at run
      have reports : after.graph.reports DiagnosticCode.ofCycle = _ :=
        addInstruction_reports rfl rfl run
      have aliases := addInstruction_aliases run
      rw [Build.onGraph_jumps] at aliases
      constructor
      · rw [reports, Instruction.remark?, aliases, if_pos fresh, folds]
        simp [Graph.reports, Graph.diagnose, Diagnostic.aliasCycle, DiagnosticCode.ofCycle]
      · intro x _
        rw [aliases]
    | some jumps =>
      simp only [merged] at run
      cases run
      constructor
      · simp [Instruction.remark?, JumpTable.merge?_aliases merged]
      · intro x other
        simp [JumpTable.merge?_aliases merged, other]

/-- Walking a stream remarks on each instruction whose fold is refused, in order. -/
private theorem addStream_remarks {stream : List (Expr String)}
    (known : ∀ e ∈ stream, e.known = true)
    {position offset : Nat} (run : Build.addStream settings position offset stream b = .ok after)
    (fresh : ∀ x, offset ≤ x → b.jumps.aliases.get? x = none) :
    after.graph.reports DiagnosticCode.ofCycle =
        b.graph.reports DiagnosticCode.ofCycle ++
          (instructionsFrom position offset stream).filterMap (·.remark? settings after.jumps) ∧
      ∀ x < offset, after.jumps.aliases.get? x = none ↔ b.jumps.aliases.get? x = none := by
  induction stream generalizing b position offset with
  | nil =>
    cases run
    simp [instructionsFrom]
  | cons e rest ih =>
    have eKnown : e.known = true := known e (by simp)
    have positive := bytes_pos eKnown
    rw [Build.addStream, size_of_known eKnown] at run
    cases step : b.addOrFold settings position offset e.bytes e with
    | error gap => simp [step, bind, Except.bind] at run
    | ok next =>
      simp only [step, bind, Except.bind] at run
      obtain ⟨reported, untouched⟩ :=
        addOrFold_remarks (i := ⟨position, offset, e⟩) step (fresh offset (Nat.le_refl _))
      have freshNext (x : Nat) (later : offset + e.bytes ≤ x) :
          next.jumps.aliases.get? x = none := by
        have other : x ≠ offset := by omega
        exact (untouched x other).mpr (fresh x (by omega))
      obtain ⟨rest, settled⟩ := ih (fun e member => known e (by simp [member])) run freshNext
      have same := settled offset (by omega)
      constructor
      · have own : Instruction.remark? settings after.jumps ⟨position, offset, e⟩ =
            Instruction.remark? settings next.jumps ⟨position, offset, e⟩ := by
          simp only [Instruction.remark?, same]
        rw [rest, reported, instructionsFrom, List.filterMap_cons, own]
        cases Instruction.remark? settings next.jumps ⟨position, offset, e⟩ <;> simp
      · intro x earlier
        have other : x ≠ offset := by omega
        exact (settled x (by omega)).trans (untouched x other)

end Construction

/-- Connecting the outputs says nothing about folds. -/
theorem Build.Records.resolve_cycles (records : b.Records settings isOpen entries kept pairs)
    (offsets : OffsetTable) :
    (b.jumps.resolve offsets b.nodeAt? b.graph).1.reports DiagnosticCode.ofCycle =
      b.graph.reports DiagnosticCode.ofCycle :=
  records.resolve_silent rfl rfl offsets

/-- The remarks on refused folds stand at the last offset of each cycle, one after the other. -/
theorem Build.Finished.remarked_iff {job : Job}
    (done : b.Finished job.settings isOpen job.stream entries kept pairs g) :
    ∃ survivors : List Nat, survivors.Pairwise (· < ·) ∧
      (∀ x, x ∈ survivors ↔ LastOfCycle job.FoldsTo x) ∧
      ((instructions job.stream).filterMap (·.remark? job.settings b.jumps)).map (·.offset) =
        survivors.map some := by
  refine ⟨(instructions job.stream).filterMap fun i =>
    (i.remark? job.settings b.jumps).map fun _ => i.offset, ?_, fun x => ?_, ?_⟩
  · rw [List.pairwise_filterMap]
    refine (instructionsFrom_increasing done.known 0 0).imp fun {i j} later x first y second => ?_
    obtain ⟨_, _, rfl⟩ := Option.map_eq_some_iff.mp first
    obtain ⟨_, _, rfl⟩ := Option.map_eq_some_iff.mp second
    exact later.2
  · rw [List.mem_filterMap]
    constructor
    · rintro ⟨i, member, isRemark⟩
      obtain ⟨d, remarked, rfl⟩ := Option.map_eq_some_iff.mp isRemark
      obtain ⟨free, folded⟩ := Option.ite_none_right_eq_some.mp remarked
      obtain ⟨target, folded, _⟩ := Option.map_eq_some_iff.mp folded
      have folds := (job.foldsTo_iff _ _).mpr ⟨i, member, rfl, folded⟩
      obtain ⟨k, isKept, same⟩ := (done.kept_iff member).mpr free
      exact done.last_of_kept folds ((done.hasInstruction_iff _).mpr ⟨k, isKept, by rw [same]⟩)
    · intro last
      obtain ⟨y, folds, _⟩ := Relation.TransGen.head'_iff.mp last.1
      obtain ⟨i, member, rfl, folded⟩ := (job.foldsTo_iff _ _).mp folds
      obtain ⟨k, isKept, same⟩ := (done.hasInstruction_iff _).mp (done.kept_of_last last)
      have one : k.instruction = i :=
        List.inj_on_of_nodup_map (instructions_offsets_nodup done.known)
          (done.mem_instructions isKept) member same
      have free := (done.kept_iff member).mp ⟨k, isKept, one⟩
      exact ⟨i, member, by simp [Instruction.remark?, free, folded]⟩
  · rw [List.map_filterMap, List.map_filterMap]
    refine List.filterMap_congr fun i _ => ?_
    unfold Instruction.remark?
    split
    · cases Build.foldTarget? job.settings i.offset i.expr.bytes i.expr <;> rfl
    · rfl

/-- Of each cycle of folded instructions exactly one survives, the last one. An instruction that the
settings fold has a node exactly when it is the last of a cycle; the remarks on refused folds, in
order, are one for each cycle and carry the offsets of the survivors; and a survivor is always a jump.
Every cycle has exactly one last member. -/
theorem last_survives_of_cycle (job : Job) (known : ∀ e ∈ job.stream, e.known = true) :
    ∃ g, job.graph = .ok g ∧
      (∀ x y, job.FoldsTo x y → (g.HasInstruction x ↔ LastOfCycle job.FoldsTo x)) ∧
      (∃ survivors : List Nat, survivors.Pairwise (· < ·) ∧
        (∀ x, x ∈ survivors ↔ LastOfCycle job.FoldsTo x) ∧
        (g.reports DiagnosticCode.ofCycle).map (·.offset) = survivors.map some) ∧
      (∀ x, LastOfCycle job.FoldsTo x →
        ∃ i ∈ instructions job.stream, i.offset = x ∧ ∃ target, i.expr = .atom (.jump target)) ∧
      ∀ x, Relation.TransGen job.FoldsTo x x →
        ∃! last, Relation.ReflTransGen job.FoldsTo x last ∧ LastOfCycle job.FoldsTo last := by
  have blank : ({} : Build).Records job.settings (fun _ => False) [] [] [] :=
    .of_values (.empty _ fun _ => False) (.refl {})
  have entered := addEntries_recorded job blank
  obtain ⟨offsets, b, kept, pairs, built, run, done, _⟩ := job.run_of_known {} entered known
  have reported : (b.jumps.resolve offsets b.nodeAt? b.graph).1.reports DiagnosticCode.ofCycle =
      (instructions job.stream).filterMap (·.remark? job.settings b.jumps) := by
    have fresh (x : Nat) (_ : 0 ≤ x) : (job.addEntries {}).jumps.aliases.get? x = none :=
      (entered.accounts.free x).mpr (by simp)
    have quiet : (job.addEntries {}).graph.reports DiagnosticCode.ofCycle = [] :=
      addEntries_reports rfl job {}
    rw [done.records.resolve_cycles, (addStream_remarks known run fresh).1, quiet]
    rfl
  have functional := Job.foldsTo_functional known
  refine ⟨_, Job.finish_of_run built run, fun x y folds => done.kept_iff_last folds, ?_,
    fun x last => Job.jump_of_lastOfCycle last known,
    fun x cycle => existsUnique_lastOfCycle functional job.foldsTo_finite cycle⟩
  rw [reported]
  exact done.remarked_iff

/-- A tracepoint before a jump back to it, a jump to itself, and a jump that goes on: the first jump
and the second survive. -/
theorem last_survives_of_cycle_twice :
    let job : Job :=
      { settings := { foldTracepoints := true, foldJumps := true }
        stream := [.atom (.marker .tracepoint), .atom (.jump 0), .atom (.jump 6),
          .atom (.jump 16), .atom (.marker .endOfScript)] }
    (∀ e ∈ job.stream, e.known = true) ∧
      ∃ g, job.graph = .ok g ∧ LastOfCycle job.FoldsTo 1 ∧ LastOfCycle job.FoldsTo 6 ∧
        ¬ LastOfCycle job.FoldsTo 0 ∧ ¬ LastOfCycle job.FoldsTo 11 ∧
        (g.reports DiagnosticCode.ofCycle).map (·.offset) = [some 1, some 6] := by
  intro job
  have known : ∀ e ∈ job.stream, e.known = true := by simp [job, Expr.known, Atom.known]
  obtain ⟨g, built, _, ⟨survivors, _, last, carried⟩, _⟩ := last_survives_of_cycle job known
  have reports : (job.graph.toOption.map fun g =>
      (g.reports DiagnosticCode.ofCycle).map (·.offset)) = some [some 1, some 6] := by
    subst job
    decide
  rw [built] at reports
  have offsets : survivors.map some = [1, 6].map some := by
    rw [← carried]
    exact Option.some.inj reports
  have same : survivors = [1, 6] := List.map_injective_iff.mpr (Option.some_injective _) offsets
  rw [same] at last
  refine ⟨known, g, built, (last 1).mp (by simp), (last 6).mp (by simp), ?_, ?_,
    Option.some.inj reports⟩
  · exact fun first => absurd ((last 0).mpr first) (by simp)
  · exact fun third => absurd ((last 11).mpr third) (by simp)

end ScriptFlow
