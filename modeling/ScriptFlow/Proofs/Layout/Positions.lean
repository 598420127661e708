import ScriptFlow.Decoding
import ScriptFlow.Proofs.Graph.Changes
import ScriptFlow.Proofs.Layout.Report

/-! Layout moves nodes and does nothing else. Placing a node overwrites its position, so that of all
placements of one node the last one counts; whatever a report says, and whether there is a report at
all, the rest of the graph stays as it was decoded. -/
namespace ScriptFlow

/-- The graph without the positions of its nodes. -/
def Graph.unplaced (g : Graph) : Graph :=
  { g with nodes := g.nodes.map fun node => { node with position := none } }

/-- The node at the place where a placement puts it. -/
def Node.placed (layout : LayoutSettings) (p : Placement) (node : Node) : Node :=
  { node with position := some (p.x * layout.scaleX, p.y * layout.scaleY) }

/-- No line states where the node is. -/
def SilentOn (id : NodeId) (lines : List (List Char)) : Prop :=
  ∀ line ∈ lines, ∀ p : Placement, p.StatedBy line → p.node ≠ id

/-- Of the lines that state where the node is, the last one states this. -/
def Placement.LastStated (p : Placement) (lines : List (List Char)) : Prop :=
  ∃ earlier line later, lines = earlier ++ line :: later ∧ p.StatedBy line ∧ SilentOn p.node later

/-- The line states where a node of the graph is. -/
def Graph.Places (g : Graph) (line : List Char) : Prop :=
  ∃ p : Placement, p.StatedBy line ∧ (g.node? p.node).isSome = true

/-- What the lines of a report make of a graph. -/
structure Graph.LaidOut (g : Graph) (layout : LayoutSettings) (lines : List (List Char))
    (after : Graph) : Prop where
  /-- Only positions change. -/
  unplaced : after.unplaced = g.unplaced
  /-- A node is where the last line that is about it says, to scale. -/
  moved : ∀ p : Placement, p.LastStated lines →
    after.node? p.node = (g.node? p.node).map (·.placed layout p)
  /-- A node that no line is about stays where it was. -/
  stays : ∀ id, SilentOn id lines → after.node? id = g.node? id

variable {layout : LayoutSettings} {g : Graph}

theorem Graph.places_iff {line : List Char} :
    g.Places line ↔ ∃ p, Placement.ofLine? line = some p ∧ (g.node? p.node).isSome = true := by
  simp only [Places, Placement.statedBy_iff]

instance (g : Graph) (line : List Char) : Decidable (g.Places line) :=
  decidable_of_iff ((Placement.ofLine? line).any fun p => (g.node? p.node).isSome) (by
    rw [Graph.places_iff, Option.any_eq_true_iff_get]
    cases Placement.ofLine? line <;> simp)

theorem silentOn_iff {id : NodeId} {lines : List (List Char)} :
    SilentOn id lines ↔ ∀ p ∈ lines.filterMap Placement.ofLine?, p.node ≠ id := by
  simp only [SilentOn, Placement.statedBy_iff, List.mem_filterMap]
  constructor
  · rintro silent p ⟨line, member, read⟩
    exact silent line member p read
  · intro silent line member p read
    exact silent p ⟨line, member, read⟩

instance (id : NodeId) (lines : List (List Char)) : Decidable (SilentOn id lines) :=
  decidable_of_iff _ silentOn_iff.symm

/-! ### Placing nodes -/

private theorem Graph.unplaced_place (p : Placement) :
    (g.place layout p).unplaced = g.unplaced := by
  have same : (g.nodes.modify p.node (·.placed layout p)).map
      (fun node => { node with position := none }) =
        g.nodes.map fun node => { node with position := none } := by
    refine Array.ext_getElem? fun i => ?_
    simp only [Array.getElem?_map, Array.getElem?_modify]
    split
    · cases g.nodes[i]? <;> rfl
    · rfl
  unfold unplaced
  exact congrArg (fun nodes => { g with nodes }) same

theorem Graph.node?_place (p : Placement) (id : NodeId) : (g.place layout p).node? id =
    if id = p.node then (g.node? id).map (·.placed layout p) else g.node? id :=
  Graph.node?_modifyNode g p.node id _

variable {placements : List Placement}

theorem Graph.unplaced_foldl_place :
    (placements.foldl (·.place layout ·) g).unplaced = g.unplaced := by
  induction placements generalizing g with
  | nil => rfl
  | cons p rest ih => exact ih.trans (unplaced_place p)

/-- A node that no placement is about stays where it is. -/
theorem Graph.node?_foldl_place_of_absent {id : NodeId} (absent : ∀ p ∈ placements, p.node ≠ id) :
    (placements.foldl (·.place layout ·) g).node? id = g.node? id := by
  induction placements generalizing g with
  | nil => rfl
  | cons p rest ih =>
    have other : id ≠ p.node := Ne.symm (absent p (by simp))
    rw [List.foldl_cons, ih fun q member => absent q (List.mem_cons_of_mem _ member), node?_place,
      if_neg other]

/-- A placement overwrites those before it. -/
theorem Graph.node?_foldl_place_of_last {p : Placement} {earlier later : List Placement}
    (last : ∀ q ∈ later, q.node ≠ p.node) :
    ((earlier ++ p :: later).foldl (·.place layout ·) g).node? p.node =
      (g.node? p.node).map (·.placed layout p) := by
  rw [List.foldl_append, List.foldl_cons, node?_foldl_place_of_absent last, node?_place, if_pos rfl]
  induction earlier generalizing g with
  | nil => rfl
  | cons q earlier ih =>
    rw [List.foldl_cons, ih, node?_place]
    split
    · cases g.node? p.node <;> rfl
    · rfl

/-! ### Reports -/

/-- What the lines of a report state about nodes of the graph. -/
private theorem placeAll_text (report : Report) :
    g.placeAll layout report.text =
      let stated := (report.contents.filterMap Placement.ofLine?).filter fun p =>
        (g.node? p.node).isSome
      (stated.foldl (·.place layout ·) g, stated.length) := by
  rw [Graph.placeAll, report.ofReport_text]

private theorem length_stated (lines : List (List Char)) :
    ((lines.filterMap Placement.ofLine?).filter fun p => (g.node? p.node).isSome).length =
      (lines.filter fun line => g.Places line).length := by
  induction lines with
  | nil => rfl
  | cons line rest ih =>
    cases read : Placement.ofLine? line with
    | none =>
      have silent : ¬ g.Places line := by simp [Graph.places_iff, read]
      simpa [read, silent] using ih
    | some p =>
      have places : g.Places line ↔ (g.node? p.node).isSome = true := by
        simp [Graph.places_iff, read]
      by_cases present : (g.node? p.node).isSome = true
      · simpa [read, places, present] using ih
      · simpa [read, places, present] using ih

/-- The nodes of a graph are where the lines of a report put them. -/
private theorem laidOut_of_stated (lines : List (List Char)) :
    g.LaidOut layout lines (((lines.filterMap Placement.ofLine?).filter fun p =>
      (g.node? p.node).isSome).foldl (·.place layout ·) g) where
  unplaced := Graph.unplaced_foldl_place
  moved p last := by
    obtain ⟨earlier, line, later, rfl, states, others⟩ := last
    have behind : ∀ q ∈ (later.filterMap Placement.ofLine?).filter fun q =>
        (g.node? q.node).isSome, q.node ≠ p.node := by
      intro q member
      exact silentOn_iff.mp others q (List.mem_filter.mp member).1
    rw [List.filterMap_append, List.filterMap_cons, Placement.statedBy_iff.mp states,
      List.filter_append, List.filter_cons]
    cases present : (g.node? p.node).isSome with
    | true =>
      rw [if_pos rfl]
      exact Graph.node?_foldl_place_of_last behind
    | false =>
      -- Nothing is said about a node that does not exist.
      have missing : g.node? p.node = none := by simpa using present
      rw [if_neg (by decide), Graph.node?_foldl_place_of_absent, missing]
      · rfl
      · intro q member same
        have found : (g.node? q.node).isSome = true := by
          rcases List.mem_append.mp member with member | member
          · exact (List.mem_filter.mp member).2
          · exact (List.mem_filter.mp member).2
        rw [same, missing] at found
        cases found
  stays id absent := by
    refine Graph.node?_foldl_place_of_absent ?_
    intro p member
    exact silentOn_iff.mp absent p (List.mem_filter.mp member).1

/-- Only the lines that state something are read. -/
private theorem filterMap_wellFormed (lines : List (List Char)) :
    (lines.filter fun line => WellFormedLine line).filterMap Placement.ofLine? =
      lines.filterMap Placement.ofLine? := by
  rw [List.filterMap_filter]
  refine congrArg (fun read => lines.filterMap read) (funext fun line => ?_)
  by_cases wellFormed : WellFormedLine line
  · simp [wellFormed]
  · rw [wellFormedLine_iff, Option.not_isSome_iff_eq_none] at wellFormed
    simp [wellFormed]

/-! ### Layout -/

variable {engine : Engine} {report : Report}

/-- An engine that answers lays the graph out. -/
private theorem layOut_of_answer (answered : engine g.dot = .ok report.text) :
    ∃ after, g.layOut layout engine =
        .ok (after, (report.contents.filter fun line => g.Places line).length) ∧
      g.LaidOut layout report.contents after := by
  refine ⟨_, ?_, laidOut_of_stated report.contents⟩
  rw [Graph.layOut, answered, Except.map, placeAll_text, ← length_stated]

private theorem layOut_of_failure {error : LayoutError} (failed : engine g.dot = .error error) :
    g.layOut layout engine = .error error := by
  rw [Graph.layOut, failed]
  rfl

/-- A laid-out function is what it is decoded to, laid out if it can be. -/
private theorem graph_of_decode {package : Package} {name : Option String} {settings : Settings}
    (enabled : settings.layout.enabled = true)
    (decoded : package.decode name settings.decode = .ok g) :
    package.graph name settings engine =
      .ok (match g.layOut settings.layout engine with
        | .ok (after, _) => after
        | .error _ => g) := by
  rw [Package.graph, decoded]
  exact congrArg Except.ok (if_pos enabled)

/-- Layout only moves nodes, each to its last reported place. An engine that fails leaves its error
and the graph as it was decoded. If an engine answers, its answer is a report; a node is then where
the last well-formed line about it says, to scale, or where it was if there is none, nothing else has
changed, and the number returned is that of the well-formed lines about nodes of the graph. Reports
with the same well-formed lines have the same outcome, whatever stands between these and however
lines end. So a laid-out function has the graph that it is decoded to except for positions, which
are those of the answer; and it has that graph itself if there is no answer or none is asked for. -/
theorem layout_only_moves (layout : LayoutSettings) (g : Graph) (engine : Engine) :
    (∀ error, engine g.dot = .error error → g.layOut layout engine = .error error) ∧
    (∀ answer, engine g.dot = .ok answer →
      (∃ report : Report, report.text = answer) ∧
      ∀ report : Report, report.text = answer → ∃ after,
        g.layOut layout engine =
          .ok (after, (report.contents.filter fun line => g.Places line).length) ∧
        g.LaidOut layout report.contents after) ∧
    (∀ (report report' : Report) (engine' : Engine),
      (report.contents.filter fun line => WellFormedLine line) =
        (report'.contents.filter fun line => WellFormedLine line) →
      engine g.dot = .ok report.text → engine' g.dot = .ok report'.text →
      g.layOut layout engine = g.layOut layout engine') ∧
    ∀ (package : Package) (name : Option String) (settings : Settings),
      (settings.layout.enabled = false →
        package.graph name settings engine = package.decode name settings.decode) ∧
      (settings.layout.enabled = true →
        (∀ error, package.decode name settings.decode = .error error →
          package.graph name settings engine = .error error) ∧
        ∀ decoded, package.decode name settings.decode = .ok decoded →
          ∃ after, package.graph name settings engine = .ok after ∧
            after.unplaced = decoded.unplaced ∧
            (∀ error, engine decoded.dot = .error error → after = decoded) ∧
            ∀ report : Report, engine decoded.dot = .ok report.text →
              decoded.LaidOut settings.layout report.contents after) := by
  refine ⟨?_, ?_, ?_, ?_⟩
  · exact fun error => layOut_of_failure
  · intro answer answered
    refine ⟨Report.exists_text answer, ?_⟩
    rintro report rfl
    exact layOut_of_answer answered
  · intro report report' engine' same answered answered'
    rw [Graph.layOut, Graph.layOut, answered, answered', Except.map, Except.map, placeAll_text,
      placeAll_text, ← filterMap_wellFormed report.contents, same, filterMap_wellFormed]
  · intro package name settings
    refine ⟨?_, fun enabled => ⟨?_, ?_⟩⟩
    · intro disabled
      rw [Package.graph]
      cases package.decode name settings.decode <;> simp [Except.map, disabled]
    · intro error failed
      rw [Package.graph, failed]
      rfl
    · intro decoded done
      rw [graph_of_decode enabled done]
      cases answer : engine decoded.dot with
      | error error =>
        rw [layOut_of_failure answer]
        exact ⟨decoded, rfl, rfl, fun _ _ => rfl, fun _ answered => nomatch answered⟩
      | ok text =>
        obtain ⟨report, rfl⟩ := Report.exists_text text
        obtain ⟨after, laid, moved⟩ := @layOut_of_answer settings.layout _ _ _ answer
        rw [laid]
        refine ⟨after, rfl, moved.unplaced, (fun _ failed => nomatch failed), fun other same => ?_⟩
        -- The graph is the same for every report that has this text.
        obtain ⟨after', laid', moved'⟩ := layOut_of_answer (answer.trans same)
        obtain ⟨rfl, -⟩ := Prod.mk.inj (Except.ok.inj (laid.symm.trans laid'))
        exact moved'

/-- Two lines about one node, one that is no placement, and one about a node that does not exist. -/
theorem layout_only_moves_twice :
    let layout : LayoutSettings := {}
    let g := (({} : Graph).addNode "Main" .entry).addNode "0: Return" (.instruction 0)
    let report : Report :=
      { lines := [⟨"node 0 1 2 1 0.5 \"a b\"".toList, .returnFeed, by decide⟩,
          ⟨"node 1 1,5 2".toList, .feed, by decide⟩, ⟨" node \"0\" 2 4".toList, .feed, by decide⟩,
          ⟨"node 9 0 0".toList, .returnFeed, by decide⟩]
        last := "stop".toList }
    let engine : Engine := fun _ => .ok report.text
    engine g.dot = .ok report.text ∧ ∃ after, g.layOut layout engine = .ok (after, 2) ∧
      after.node? 0 = (g.node? 0).map (·.placed layout ⟨0, .ofInt 2, .ofInt 4⟩) ∧
      after.node? 1 = g.node? 1 := by
  intro layout g report engine
  obtain ⟨_, answered, _⟩ := layout_only_moves layout g engine
  obtain ⟨after, laid, moved⟩ := (answered report.text rfl).2 report rfl
  have places : (report.contents.filter fun line => g.Places line).length = 2 := by
    subst g report
    decide +kernel
  have stated : (⟨0, .ofInt 2, .ofInt 4⟩ : Placement).StatedBy " node \"0\" 2 4".toList := by
    rw [Placement.statedBy_iff]
    decide +kernel
  have silent : SilentOn 0 ["node 9 0 0".toList, "stop".toList] := by decide +kernel
  refine ⟨rfl, after, places ▸ laid, moved.moved ⟨0, .ofInt 2, .ofInt 4⟩ ?_, moved.stays 1 ?_⟩
  · exact ⟨["node 0 1 2 1 0.5 \"a b\"".toList, "node 1 1,5 2".toList], _, _, rfl, stated, silent⟩
  · subst report
    decide +kernel

end ScriptFlow
