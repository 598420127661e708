import ScriptFlow.Proofs.Collection.OrderedMap
import ScriptFlow.Proofs.Flow.WellFormed
import ScriptFlow.Proofs.Graph.RecordLabel
import ScriptFlow.Proofs.Text.Lines

/-! DOT text read back. The text of a graph is a line for each node, for each edge and for each
function entry between fixed lines, and no name breaks a line. An edge names the fields that it is
attached to by their ports, so that reading it takes the labels of its two nodes; in a well-formed
graph every edge has both fields, and none is left out. -/
namespace ScriptFlow

namespace Dot

/-- An edge as its line shows it, with the ports of the fields that it is attached to. -/
structure Wire where
  source : NodeId
  output : String
  target : NodeId
  input : String
  weight : Nat
  deriving DecidableEq

/-- What a layout program is given to draw. -/
structure Drawing where
  nodes : List (NodeId × Label)
  edges : List Edge
  entries : List NodeId
  deriving DecidableEq

/-! ### Reading -/

/-- The number at the front of a text, and what follows it. -/
def readNumber? (text : List Char) : Option (Nat × List Char) :=
  if (spanDigits [] text).1 = [] then none
  else some (ofDigits (spanDigits [] text).1, (spanDigits [] text).2)

/-- A node, from its line. -/
def readNode? (line : String) : Option (NodeId × Label) := do
  let id ← readNumber? line.toList
  let width ← id.2.dropPrefix? " [shape=\"record\", width=".toList
  let label ← (width.dropWhile (· ≠ ',')).dropPrefix? ", label=\"".toList
  let record ← readLabel? (cut false label).pieces
  return (id.1, record)

/-- A node and a port of it with a colon between them, and what follows the colon after the port. -/
def readEnd? (text : List Char) : Option ((NodeId × String) × List Char) := do
  let id ← readNumber? text
  let port ← id.2.dropPrefix? ":".toList
  let rest ← (port.dropWhile (· ≠ ':')).dropPrefix? ":".toList
  return ((id.1, String.ofList (port.takeWhile (· ≠ ':'))), rest)

/-- An edge, from its line. -/
def readWire? (line : String) : Option Wire := do
  let source ← readEnd? line.toList
  let arrow ← source.2.dropPrefix? "e -> ".toList
  let target ← readEnd? arrow
  let strength ← target.2.dropPrefix? "w [weight = ".toList
  let weight ← readNumber? strength
  if weight.2 = "]".toList then
    some ⟨source.1.1, source.1.2, target.1.1, target.1.2, weight.1⟩
  else none

/-- A function entry, from its line. -/
def readEntryId? (line : String) : Option NodeId := do
  let id ← readNumber? line.toList
  if id.2 = [] then some id.1 else none

/-- What the lines at the front say, as long as they can be read, and the other lines. -/
def readWhile {α : Type} (read? : String → Option α) : List String → List α × List String
  | [] => ([], [])
  | line :: rest =>
    match read? line with
    | some value => (value :: (readWhile read? rest).1, (readWhile read? rest).2)
    | none => ([], line :: rest)

/-- What is entered under a key. -/
def lookUp? {κ ν : Type} [DecidableEq κ] (entries : List (κ × ν)) (key : κ) : Option ν :=
  (entries.find? (·.1 = key)).map (·.2)

/-- What an edge of a weight carries. -/
def kindOf? (strength : Nat) : Option FlowKind :=
  [FlowKind.execution, FlowKind.data].find? (weight · = strength)

/-- The edge between the pins whose fields have the ports. -/
def Wire.edge? (nodes : List (NodeId × Label)) (wire : Wire) : Option Edge := do
  let kind ← kindOf? wire.weight
  let source ← lookUp? nodes wire.source
  let sourcePin ← lookUp? source.fields wire.output
  let target ← lookUp? nodes wire.target
  let targetPin ← lookUp? target.fields wire.input
  return ⟨kind, wire.source, sourcePin, wire.target, targetPin⟩

/-- The lines before the nodes, those before the entries, and those after them. -/
def opening : List String := ["strict digraph \x7b", "rankdir=\"LR\""]
@[inherit_doc opening]
def ranking : List String := ["\x7b", "rank = \"source\";"]
@[inherit_doc opening]
def closing : List String := ["\x7d", "\x7d"]

/-- The drawing that a text describes. -/
def read? (text : String) : Option Drawing := do
  let body ← (lines text).dropPrefix? opening
  let nodes := readWhile readNode? body
  let wires := readWhile readWire? nodes.2
  let ranked ← wires.2.dropPrefix? ranking
  let entries := readWhile readEntryId? ranked
  let edges ← wires.1.mapM (Wire.edge? nodes.1)
  if entries.2 = closing ∧ (nodes.1.map (·.1)).Nodup then some ⟨nodes.1, edges, entries.1⟩
  else none

/-! ### Texts of one line -/

theorem oneLine_joinWith {separator : String} (between : OneLine separator) {texts : List String}
    (each : ∀ text ∈ texts, OneLine text) : OneLine (joinWith separator texts) := by
  induction texts with
  | nil => simp [joinWith, OneLine]
  | cons text rest ih =>
    obtain ⟨first, others⟩ := List.forall_mem_cons.mp each
    cases rest with
    | nil => exact first
    | cons next rest => simp [joinWith, first, between, ih others]

/-- A newline inside a label is written as two other characters. -/
theorem oneLine_escape (text : String) : OneLine (escape text) := by
  intro newline
  rw [escape, String.toList_ofList] at newline
  obtain ⟨c, _, written⟩ := List.mem_flatMap.mp newline
  unfold escapeChar at written
  split at written
  · rename_i special
    simp only [List.mem_cons, List.not_mem_nil, or_false] at written
    rcases written with same | rfl
    · cases same
    · simp at special
  · split at written
    · simp at written
    · rename_i other
      exact other (List.mem_singleton.mp written).symm

/-! ### Lines of nodes and entries -/

theorem dropPrefix?_append {α : Type} [DecidableEq α] (front rest : List α) :
    (front ++ rest).dropPrefix? front = some rest :=
  List.dropPrefix?_eq_some_iff.mpr ⟨front, rfl, beq_self_eq_true front⟩

theorem readNumber?_natText (n : Nat) {rest : List Char} (ends : startsWithDigit rest = false) :
    readNumber? ((natText n).toList ++ rest) = some (n, rest) := by
  rw [readNumber?, natText, String.toList_ofList, spanDigits_toDigits n ends]
  simp [natDigits_ne_nil, ofDigits_natDigits]

/-- The line of a node, without the newline. -/
def nodeText (node : Node) : String :=
  natText node.id ++ " [shape=\"record\", width=" ++ width node ++ ", label=\"" ++
    recordLabel node ++ "\"]"

private theorem nodeLine_eq (node : Node) : nodeLine node = nodeText node ++ "\n" := by
  apply String.toList_inj.mp
  simp [nodeLine, nodeText]

private theorem comma_not_mem_width (node : Node) : ',' ∉ (width node).toList := by
  rw [width, String.toList_append, List.mem_append, not_or]
  refine ⟨not_mem_natText rfl _, ?_⟩
  split <;> decide

private theorem readNode?_nodeText (node : Node) :
    readNode? (nodeText node) = some (node.id, recordOf node) := by
  have spelled : (nodeText node).toList = (natText node.id).toList ++
      (" [shape=\"record\", width=".toList ++ ((width node).toList ++ (", label=\"".toList ++
        ((recordLabel node).toList ++ "\"]".toList)))) := by
    simp [nodeText]
  have skipped (rest : List Char) :
      ((width node).toList ++ (", label=\"".toList ++ rest)).dropWhile (· ≠ ',') =
        ", label=\"".toList ++ rest := by
    apply List.dropWhile_append_of_pos
    intro c member
    simpa using ne_of_mem_of_not_mem member (comma_not_mem_width node)
  rw [readNode?, spelled, readNumber?_natText _ (by rfl)]
  simp only [Option.bind_eq_bind, Option.bind_some, dropPrefix?_append, skipped,
    readLabel?_recordLabel, Option.pure_def]

theorem oneLine_pinFields (letter : String) (letterLine : OneLine letter) (pins : List Pin) :
    OneLine (pinFields letter pins) := by
  apply oneLine_joinWith (by decide)
  intro text member
  obtain ⟨⟨pin, i⟩, _, rfl⟩ := List.mem_map.mp member
  simp +decide [letterLine, oneLine_natText, oneLine_escape]

private theorem oneLine_nodeText (node : Node) : OneLine (nodeText node) := by
  have titleLine : OneLine (title node) := by
    apply oneLine_joinWith (by decide)
    intro text member
    obtain ⟨_, _, rfl⟩ := List.mem_map.mp member
    exact oneLine_escape _
  have widthLine : OneLine (width node) := by
    rw [width, oneLine_append]
    refine ⟨oneLine_natText _, ?_⟩
    split <;> decide
  have inputs := oneLine_pinFields "i" (by decide) node.inputs
  have outputs := oneLine_pinFields "o" (by decide) node.outputs
  simp +decide [nodeText, recordLabel, oneLine_natText, titleLine, widthLine, inputs, outputs]

/-- A function entry is read from its line, which holds its number only. -/
theorem readEntryId?_natText (id : NodeId) : readEntryId? (natText id) = some id := by
  have number : readNumber? (natText id).toList = some (id, []) := by
    rw [← List.append_nil (natText id).toList]
    exact readNumber?_natText id rfl
  simp [readEntryId?, number]

/-! ### Lines of edges -/

/-- The line of an edge, without the newline. -/
def Wire.text (wire : Wire) : String :=
  natText wire.source ++ ":" ++ wire.output ++ ":e -> " ++ natText wire.target ++ ":" ++
    wire.input ++ ":w [weight = " ++ natText wire.weight ++ "]"

theorem readEnd?_append (id : NodeId) {port : String} (whole : ':' ∉ port.toList)
    (rest : List Char) :
    readEnd? ((natText id).toList ++ (':' :: (port.toList ++ ':' :: rest))) =
      some ((id, port), rest) := by
  have inside : ∀ c ∈ port.toList, decide (c ≠ ':') = true := by
    intro c member
    simpa using ne_of_mem_of_not_mem member whole
  have shown : (port.toList ++ ':' :: rest).takeWhile (· ≠ ':') = port.toList := by
    rw [List.takeWhile_append_of_pos inside, List.takeWhile_cons_of_neg (by simp), List.append_nil]
  have after : (port.toList ++ ':' :: rest).dropWhile (· ≠ ':') = ":".toList ++ rest := by
    rw [List.dropWhile_append_of_pos inside, List.dropWhile_cons_of_neg (by simp)]
    rfl
  have colon : (':' :: (port.toList ++ ':' :: rest)).dropPrefix? ":".toList =
      some (port.toList ++ ':' :: rest) := dropPrefix?_append ":".toList _
  rw [readEnd?, readNumber?_natText _ (by rfl)]
  simp only [Option.bind_eq_bind, Option.bind_some, colon, after, shown, dropPrefix?_append,
    String.ofList_toList, Option.pure_def]

private theorem readWire?_text {wire : Wire} (output : ':' ∉ wire.output.toList)
    (input : ':' ∉ wire.input.toList) : readWire? wire.text = some wire := by
  have spelled : wire.text.toList = (natText wire.source).toList ++ (':' :: (wire.output.toList ++
      ':' :: ("e -> ".toList ++ ((natText wire.target).toList ++ (':' :: (wire.input.toList ++
        ':' :: ("w [weight = ".toList ++ ((natText wire.weight).toList ++ "]".toList)))))))) := by
    simp [Wire.text]
  rw [readWire?, spelled, readEnd?_append _ output]
  simp only [Option.bind_eq_bind, Option.bind_some, dropPrefix?_append, readEnd?_append _ input,
    readNumber?_natText _ (show startsWithDigit "]".toList = false from rfl), if_true]

/-! ### Edges and their fields -/

@[simp] theorem lookUp?_eq_some {κ ν : Type} [DecidableEq κ] {entries : List (κ × ν)}
    (distinct : (entries.map (·.1)).Nodup) {key : κ} {value : ν} :
    lookUp? entries key = some value ↔ (key, value) ∈ entries :=
  find?_key_iff distinct

/-- The number of the field of a pin. -/
def fieldOf (g : Graph) (id : NodeId) (pin : String) (direction : Direction) : Nat :=
  ((g.node? id).bind fun node => fieldIndex? node pin direction).getD 0

/-- An edge with the ports that it is drawn between. -/
def wireOf (g : Graph) (edge : Edge) : Wire where
  source := edge.source
  output := "o" ++ natText (fieldOf g edge.source edge.sourcePin .output)
  target := edge.target
  input := "i" ++ natText (fieldOf g edge.target edge.targetPin .input)
  weight := weight edge.kind

private theorem kindOf?_weight (kind : FlowKind) : kindOf? (weight kind) = some kind := by
  cases kind <;> decide

/-- A pin has a field, and the port of the field is entered with the name of the pin. -/
theorem field_of_mem {g : Graph} {id : NodeId} {node : Node} {pin : Pin}
    (found : g.node? id = some node) (member : pin ∈ node.pins) (letter : String) :
    fieldIndex? node pin.name pin.direction = some (fieldOf g id pin.name pin.direction) ∧
      (letter ++ natText (fieldOf g id pin.name pin.direction), pin.name) ∈
        portFields letter (node.pinsFacing pin.direction) := by
  have faces : pin ∈ node.pinsFacing pin.direction := List.mem_filter.mpr ⟨member, by simp⟩
  have present : ((node.pinsFacing pin.direction).findIdx? (·.name = pin.name)).isSome := by
    rw [List.findIdx?_isSome, List.any_eq_true]
    exact ⟨pin, faces, by simp⟩
  obtain ⟨i, index⟩ := Option.isSome_iff_exists.mp present
  have number : fieldOf g id pin.name pin.direction = i := by
    simp [fieldOf, found, fieldIndex?, index]
  rw [number]
  refine ⟨index, ?_⟩
  obtain ⟨bound, named, _⟩ := List.findIdx?_eq_some_iff_getElem.mp index
  refine List.mem_map.mpr ⟨((node.pinsFacing pin.direction)[i], i), ?_, ?_⟩
  · exact List.mem_zipIdx_iff_getElem?.mpr (List.getElem?_eq_getElem bound)
  · simpa [pinField] using named

/-- The drawing of a graph: its nodes with their records, its edges and its entries, in order. -/
def drawingOf (g : Graph) : Drawing where
  nodes := g.nodes.toList.map fun node => (node.id, recordOf node)
  edges := g.edges.toList
  entries := g.entryNodes.map (·.id)

/-- An edge leaves an output of a node and enters an input of one. -/
def Attached (g : Graph) (edge : Edge) : Prop :=
  (∃ source, g.node? edge.source = some source ∧
      ∃ kind, ⟨edge.sourcePin, .output, kind⟩ ∈ source.pins) ∧
    ∃ target, g.node? edge.target = some target ∧
      ∃ kind, ⟨edge.targetPin, .input, kind⟩ ∈ target.pins

variable {g : Graph}

theorem attached_of_wellFormed (wellFormed : g.WellFormed) {edge : Edge} (member : edge ∈ g.edges) :
    Attached g edge := by
  cases carries : edge.kind with
  | execution =>
    obtain ⟨⟨source, found, _, output⟩, enters, offset, target, isTarget, kind⟩ :=
      wellFormed.execution edge member carries
    have pins := wellFormed.pins edge.target target isTarget
    rw [Node.HasPins, kind] at pins
    exact ⟨⟨source, found, _, output⟩, target, isTarget, _, enters ▸ pins⟩
  | data =>
    obtain ⟨leaves, ⟨source, found, kind⟩, target, isTarget, _, input⟩ :=
      wellFormed.data edge member carries
    have pins := wellFormed.pins edge.source source found
    rw [Node.HasPins, kind] at pins
    have output : ⟨resultPin, .output, .data⟩ ∈ source.outputs := by simp [pins.1]
    exact ⟨⟨source, found, _, leaves ▸ (List.mem_filter.mp output).1⟩, target, isTarget, _, input⟩

/-- An attached edge has its line. -/
theorem edgeLine?_of_attached {edge : Edge} (attached : Attached g edge) :
    edgeLine? g edge = some ((wireOf g edge).text ++ "\n") := by
  obtain ⟨⟨source, found, _, output⟩, target, isTarget, _, input⟩ := attached
  have outputIndex := (field_of_mem found output "o").1
  have inputIndex := (field_of_mem isTarget input "i").1
  simp only [edgeLine?, found, isTarget, Option.bind_eq_bind, Option.bind_some, outputIndex,
    inputIndex]
  refine congrArg some (String.toList_inj.mp ?_)
  simp [Wire.text, wireOf]

private theorem ids_of_wellFormed (wellFormed : g.WellFormed) :
    ((drawingOf g).nodes.map (·.1)) = List.range g.nodes.size := by
  apply List.ext_getElem
  · simp [drawingOf]
  · intro i inNodes inRange
    have bound : i < g.nodes.size := by simpa using inRange
    have id := wellFormed.ids i g.nodes[i] (Array.getElem?_eq_getElem bound)
    simp [drawingOf, id]

theorem ids_nodup (wellFormed : g.WellFormed) : ((drawingOf g).nodes.map (·.1)).Nodup := by
  rw [ids_of_wellFormed wellFormed]
  exact List.nodup_range

/-- The ports of an edge denote the pins that it is attached to. -/
theorem edge?_wireOf (wellFormed : g.WellFormed) {edge : Edge} (attached : Attached g edge) :
    (wireOf g edge).edge? (drawingOf g).nodes = some edge := by
  have drawn {id : NodeId} {node : Node} (found : g.node? id = some node) :
      lookUp? (drawingOf g).nodes id = some (recordOf node) := by
    rw [lookUp?_eq_some (ids_nodup wellFormed)]
    refine List.mem_map.mpr ⟨node, ?_, by rw [wellFormed.ids id node found]⟩
    exact Array.mem_toList_iff.mpr (Array.mem_of_getElem? found)
  obtain ⟨⟨source, found, _, output⟩, target, isTarget, _, input⟩ := attached
  have sourcePin : lookUp? (recordOf source).fields (wireOf g edge).output = some edge.sourcePin :=
    (lookUp?_eq_some (recordOf_distinct source)).mpr
      (List.mem_append_right _ (field_of_mem found output "o").2)
  have targetPin : lookUp? (recordOf target).fields (wireOf g edge).input = some edge.targetPin :=
    (lookUp?_eq_some (recordOf_distinct target)).mpr
      (List.mem_append_left _ (field_of_mem isTarget input "i").2)
  have carries : kindOf? (wireOf g edge).weight = some edge.kind := kindOf?_weight edge.kind
  simp only [Wire.edge?, Option.bind_eq_bind, Option.bind_some, carries]
  simp only [wireOf] at sourcePin targetPin ⊢
  simp only [drawn found, drawn isTarget, Option.bind_some, sourcePin, targetPin, Option.pure_def]

private theorem readWire?_wireOf (edge : Edge) :
    readWire? (wireOf g edge).text = some (wireOf g edge) := by
  apply readWire?_text
  · simp [wireOf, not_mem_natText]
  · simp [wireOf, not_mem_natText]

/-- The line of an edge is none of a node: a colon follows the number. -/
theorem readNode?_text (wire : Wire) : readNode? wire.text = none := by
  have spelled : ∃ rest, wire.text.toList = (natText wire.source).toList ++ ':' :: rest :=
    ⟨_, by simp only [Wire.text, String.toList_append, List.append_assoc]; rfl⟩
  obtain ⟨rest, spelled⟩ := spelled
  rw [readNode?, spelled, readNumber?_natText _ (by rfl)]
  rfl

/-! ### The whole text -/

/-- The lines of the nodes. -/
def nodeTexts (g : Graph) : List String := g.nodes.toList.map nodeText

/-- The lines of the edges. -/
def edgeTexts (g : Graph) : List String := g.edges.toList.map fun edge => (wireOf g edge).text

/-- The lines of the function entries. -/
def entryTexts (g : Graph) : List String := g.entryNodes.map fun node => natText node.id

/-- All lines, if every edge has one. -/
def textLines (g : Graph) : List String :=
  opening ++ nodeTexts g ++ edgeTexts g ++ ranking ++ entryTexts g ++ closing

private theorem oneLine_wireOf (edge : Edge) : OneLine (wireOf g edge).text := by
  simp +decide [Wire.text, wireOf, oneLine_natText]

private theorem oneLine_of_mem_textLines {line : String} (member : line ∈ textLines g) :
    OneLine line := by
  have fixed : ∀ line ∈ opening ++ ranking ++ closing, OneLine line := by decide
  simp only [textLines, nodeTexts, edgeTexts, entryTexts, List.mem_append, List.mem_map] at member
  simp only [List.mem_append] at fixed
  rcases member with ((((member | ⟨node, _, rfl⟩) | ⟨edge, _, rfl⟩) | member) | ⟨node, _, rfl⟩) |
    member
  · exact fixed line (.inl (.inl member))
  · exact oneLine_nodeText node
  · exact oneLine_wireOf edge
  · exact fixed line (.inl (.inr member))
  · exact oneLine_natText node.id
  · exact fixed line (.inr member)

theorem lines_dot (attached : ∀ edge ∈ g.edges, Attached g edge) : lines g.dot = textLines g := by
  have nodes : g.nodes.toList.map nodeLine = (nodeTexts g).map (· ++ "\n") := by
    rw [nodeTexts, List.map_map]
    exact List.map_congr_left fun node _ => nodeLine_eq node
  have edges : g.edges.toList.filterMap (edgeLine? g) = (edgeTexts g).map (· ++ "\n") := by
    rw [edgeTexts, List.map_map, ← List.filterMap_eq_map]
    apply List.filterMap_congr
    intro edge member
    exact edgeLine?_of_attached (attached edge (Array.mem_toList_iff.mp member))
  have entries : (g.entryNodes.map fun node => natText node.id ++ "\n") =
      (entryTexts g).map (· ++ "\n") := by
    rw [entryTexts, List.map_map]
    rfl
  have before : String.join (opening.map (· ++ "\n")) =
      "strict digraph \x7b\nrankdir=\"LR\"\n" := String.toList_inj.mp (by simp [opening])
  have between : String.join (ranking.map (· ++ "\n")) = "\x7b\nrank = \"source\";\n" :=
    String.toList_inj.mp (by simp [ranking])
  have after : String.join (closing.map (· ++ "\n")) = "\x7d\n\x7d\n" :=
    String.toList_inj.mp (by simp [closing])
  have spelled : g.dot = String.join ((textLines g).map (· ++ "\n")) := by
    unfold Graph.dot
    simp only [nodes, edges, entries, textLines, List.map_append, String.join_append, before, between,
      after]
  rw [spelled, lines_join fun _ => oneLine_of_mem_textLines]

/-- Lines are read up to the first one that says something else. -/
theorem readWhile_append {α β : Type} {read? : String → Option α} {line : β → String} {value : β → α}
    (reads : ∀ b, read? (line b) = some (value b)) (items : List β) {rest : List String}
    (ends : readWhile read? rest = ([], rest)) :
    readWhile read? (items.map line ++ rest) = (items.map value, rest) := by
  induction items with
  | nil => exact ends
  | cons item items ih => simp [readWhile, reads, ih]

private theorem readWhile_nodeTexts (rest : List String) :
    readWhile readNode? (nodeTexts g ++ (edgeTexts g ++ (ranking ++ rest))) =
      ((drawingOf g).nodes, edgeTexts g ++ (ranking ++ rest)) := by
  apply readWhile_append readNode?_nodeText
  rw [edgeTexts]
  cases g.edges.toList with
  | nil => rfl
  | cons edge edges => simp [readWhile, readNode?_text]

private theorem readWhile_edgeTexts (rest : List String) :
    readWhile readWire? (edgeTexts g ++ (ranking ++ rest)) =
      (g.edges.toList.map (wireOf g), ranking ++ rest) := by
  apply readWhile_append readWire?_wireOf
  rfl

private theorem readWhile_entryTexts :
    readWhile readEntryId? (entryTexts g ++ closing) = ((drawingOf g).entries, closing) := by
  apply readWhile_append fun node : Node => readEntryId?_natText node.id
  rfl

/-- The text of a well-formed graph is read back. -/
theorem read?_dot (wellFormed : g.WellFormed) : read? g.dot = some (drawingOf g) := by
  have attached : ∀ edge ∈ g.edges, Attached g edge := fun _ => attached_of_wellFormed wellFormed
  have resolved : (g.edges.toList.map (wireOf g)).mapM (Wire.edge? (drawingOf g).nodes) =
      some g.edges.toList := by
    rw [mapM_map_eq_some_iff]
    intro edge member
    exact edge?_wireOf wellFormed (attached edge (Array.mem_toList_iff.mp member))
  rw [read?, lines_dot attached, textLines]
  simp only [List.append_assoc, dropPrefix?_append, Option.bind_eq_bind, Option.bind_some,
    readWhile_nodeTexts, readWhile_edgeTexts, readWhile_entryTexts, resolved]
  rw [if_pos ⟨trivial, ids_nodup wellFormed⟩]
  rfl

theorem length_lines_dot (wellFormed : g.WellFormed) :
    (lines g.dot).length = g.nodes.size + g.edges.size + g.entryNodes.length + 6 := by
  rw [lines_dot fun _ => attached_of_wellFormed wellFormed]
  simp only [textLines, nodeTexts, edgeTexts, entryTexts, List.length_append, List.length_map,
    Array.length_toList, opening, ranking, closing, List.length_cons, List.length_nil]
  omega

end Dot

/-- The text of every graph says which nodes there are, with their titles and the names of their
pins, which pins each edge connects and where execution enters, whatever the names are; and it has
one line for each node, edge and entry. -/
theorem dot_lossless (job : Job) (operands : List (Expr String))
    (operandsKnown : ∀ e ∈ operands, e.known = true) (known : ∀ e ∈ job.stream, e.known = true) :
    ∃ g, job.finish (Build.valueAll job.settings.mode operands {}).2 = .ok g ∧
      Dot.read? g.dot = some (Dot.drawingOf g) ∧
      (lines g.dot).length = g.nodes.size + g.edges.size + g.entryNodes.length + 6 := by
  obtain ⟨b, offsets, entries, kept, pairs, built, finished⟩ :=
    job.finish_of_valued operandsKnown known
  have wellFormed := finished.wellFormed
  exact ⟨_, built, Dot.read?_dot wellFormed, Dot.length_lines_dot wellFormed⟩

/-- A call with a string constant, where everything that has a meaning in a record label stands in
names and in the constant. -/
theorem dot_lossless_quoted :
    let text := "\x7b\"|\\n\"\x7d\n"
    let job : Job :=
      { stream := [.variadic (.call .math "Say|") [.atom (.string text)]], entry := some "<A>" }
    let drawing : Dot.Drawing :=
      { nodes :=
          [(0, ⟨"<A>", [], [("o0", "then")]⟩),
            (1, ⟨"0: CallMath - Say|", [("i0", "execute"), ("i1", "arg_1")], [("o0", "then")]⟩),
            (2, ⟨"String\n\"" ++ text ++ "\"", [], [("o0", "result")]⟩)]
        edges := [⟨.data, 2, "result", 1, "arg_1"⟩, ⟨.execution, 0, "then", 1, "execute"⟩]
        entries := [0] }
    ((∀ e ∈ ([] : List (Expr String)), e.known = true) ∧ ∀ e ∈ job.stream, e.known = true) ∧
      ∃ g, job.finish (Build.valueAll job.settings.mode [] {}).2 = .ok g ∧
        Dot.read? g.dot = some (Dot.drawingOf g) ∧
        (lines g.dot).length = g.nodes.size + g.edges.size + g.entryNodes.length + 6 ∧
        Dot.drawingOf g = drawing := by
  intro text job drawing
  have known : ∀ e ∈ job.stream, e.known = true := by simp [job, Expr.known, Atom.known]
  obtain ⟨g, built, recovered, counted⟩ := dot_lossless job [] (by simp) known
  have drawn : (job.finish (Build.valueAll job.settings.mode [] {}).2).toOption.map Dot.drawingOf =
      some drawing := by
    subst drawing job text
    decide
  rw [built] at drawn
  exact ⟨⟨by simp, known⟩, g, built, recovered, counted, Option.some.inj drawn⟩

end ScriptFlow
