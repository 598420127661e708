import Mathlib.Data.List.Nodup
import ScriptFlow.Graph.Dot
import ScriptFlow.Proofs.Graph.PinNames
import ScriptFlow.Proofs.Number.Digits

/-! Record labels read back. A layout program cuts the text of a label at the characters that no
backslash escapes; an escaped character stands for itself, an escaped `n` for a new line. Whatever
characters the title and the pins have, cutting the label of a node gives back its title, and for
each side the names of its pins with the ports that edges attach to. -/
namespace ScriptFlow.Dot

/-- A text cut at marks: what stands before the first mark, and each mark with what follows it. -/
structure Cuttings where
  front : List Char := []
  pieces : List (Char × List Char) := []

/-- The same cuttings with a text in front. -/
def Cuttings.prepend (text : List Char) (cuttings : Cuttings) : Cuttings :=
  { cuttings with front := text ++ cuttings.front }

/-- The characters that bound the fields of a record, and the quote that ends its label. -/
def marks : List Char := ['\x7b', '\x7d', '|', '<', '>', '"']

/-- A text cut at its unescaped marks; `escaped` says whether a backslash stands just before. -/
def cut (escaped : Bool) : List Char → Cuttings
  | [] => {}
  | c :: rest =>
    if escaped then (cut false rest).prepend [if c = 'n' then '\n' else c]
    else if c = '\\' then cut true rest
    else if c ∈ marks then { pieces := (c, (cut false rest).front) :: (cut false rest).pieces }
    else (cut false rest).prepend [c]

/-- A field of a record: its port and the name in it. -/
abbrev Field := String × String

/-- A record as a layout program reads it. -/
structure Label where
  title : String
  inputs : List Field
  outputs : List Field
  deriving DecidableEq

/-- The fields of a record, on either side. -/
def Label.fields (label : Label) : List Field := label.inputs ++ label.outputs

/-- A field, from what stands between its angle brackets and what follows up to a blank. -/
def readField (port name : List Char) : Field := (String.ofList port, String.ofList name.dropLast)

/-- The fields up to a closing brace, and what comes after the brace. -/
def readFields : List (Char × List Char) → Option (List Field × List (Char × List Char))
  | ('\x7d', _) :: rest => some ([], rest)
  | ('<', port) :: ('>', name) :: ('\x7d', _) :: rest => some ([readField port name], rest)
  | ('<', port) :: ('>', name) :: ('|', _) :: rest =>
    (readFields rest).map fun read => (readField port name :: read.1, read.2)
  | _ => none

/-- What comes after the fields of a record. -/
def closingPieces : List (Char × List Char) := [('\x7d', [' ']), ('\x7d', []), ('"', [']'])]

/-- The record whose pieces are given: a title, and under it the fields of both sides. Ports that
repeat say nothing about where an edge attaches. -/
def readLabel? : List (Char × List Char) → Option Label
  | ('\x7b', _) :: ('\x7b', title) :: ('\x7d', _) :: ('|', _) :: ('\x7b', _) :: ('\x7b', _) :: rest =>
    do
      let inputs ← readFields rest
      let outputs ← readFields (inputs.2.drop 2)
      let label : Label := ⟨String.ofList title, inputs.1, outputs.1⟩
      if outputs.2 = closingPieces ∧ (label.fields.map (·.1)).Nodup then some label else none
  | _ => none

/-! ### Cutting -/

theorem Cuttings.prepend_append (first second : List Char) (cuttings : Cuttings) :
    cuttings.prepend (first ++ second) = (cuttings.prepend second).prepend first := by
  simp [Cuttings.prepend]

@[simp] theorem cut_mark {c : Char} (mark : c ∈ marks) (rest : List Char) :
    cut false (c :: rest) =
      { pieces := (c, (cut false rest).front) :: (cut false rest).pieces } := by
  have notBackslash : c ≠ '\\' := by
    rintro rfl
    simp [marks] at mark
  simp [cut, mark, notBackslash]

/-- Characters that are neither marks nor backslashes stand for themselves. -/
theorem cut_plain {text : List Char} (plain : ∀ c ∈ text, c ∉ marks ∧ c ≠ '\\')
    (rest : List Char) : cut false (text ++ rest) = (cut false rest).prepend text := by
  induction text with
  | nil => rfl
  | cons c text ih =>
    obtain ⟨notMark, notBackslash⟩ := plain c (List.mem_cons_self ..)
    have tail := ih fun other member => plain other (List.mem_cons_of_mem _ member)
    rw [List.cons_append, cut, if_neg (by decide), if_neg notBackslash, if_neg notMark, tail]
    exact (Cuttings.prepend_append [c] text _).symm

private theorem cut_escapeChar (c : Char) (rest : List Char) :
    cut false (escapeChar c ++ rest) = (cut false rest).prepend [c] := by
  unfold escapeChar
  by_cases special : c ∈ ['\x7b', '\x7d', '|', '<', '>', '"', '\\']
  · have notLetter : c ≠ 'n' := by
      rintro rfl
      simp at special
    rw [if_pos special]
    simp [cut, notLetter]
  · rw [if_neg special]
    by_cases newline : c = '\n'
    · simp [newline, cut]
    · have plain : c ∉ marks ∧ c ≠ '\\' := by
        simp only [List.mem_cons, List.not_mem_nil, or_false, not_or] at special
        simp [marks, special]
      rw [if_neg newline]
      exact cut_plain (by simpa using plain) rest

theorem cut_escape (text : String) (rest : List Char) :
    cut false ((escape text).toList ++ rest) = (cut false rest).prepend text.toList := by
  rw [escape, String.toList_ofList]
  induction text.toList with
  | nil => rfl
  | cons c text ih =>
    rw [List.flatMap_cons, List.append_assoc, cut_escapeChar, ih, ← Cuttings.prepend_append]
    rfl

/-- The lines of a title, each escaped, are cut to the lines of a text. -/
private theorem cut_joinWith_escape (texts : List String) (rest : List Char) :
    cut false ((joinWith "\\n" (texts.map escape)).toList ++ rest) =
      (cut false rest).prepend (joinWith "\n" texts).toList := by
  induction texts with
  | nil => rfl
  | cons text texts ih =>
    cases texts with
    | nil => exact cut_escape text rest
    | cons next texts =>
      have newline (rest : List Char) :
          cut false ("\\n".toList ++ rest) = (cut false rest).prepend "\n".toList := by
        simp [cut]
      simp only [List.map_cons, joinWith, String.toList_append, List.append_assoc] at ih ⊢
      rw [cut_escape, newline, ih, Cuttings.prepend_append, Cuttings.prepend_append]

/-! ### Fields -/

/-- The text of the field of a pin with its number. -/
def fieldText (letter : String) (entry : Pin × Nat) : String :=
  "<" ++ letter ++ natText entry.2 ++ ">" ++ escape entry.1.name

/-- The field of a pin, under the port of its number. -/
def pinField (letter : String) (entry : Pin × Nat) : Field :=
  (letter ++ natText entry.2, entry.1.name)

/-- The fields of pins that face one way. -/
def portFields (letter : String) (pins : List Pin) : List Field :=
  pins.zipIdx.map (pinField letter)

/-- Letters and digits have no place among the marks. -/
def Plain (text : String) : Prop := ∀ c ∈ text.toList, c ∉ marks ∧ c ≠ '\\'

instance (text : String) : Decidable (Plain text) :=
  List.decidableBAll (fun c => c ∉ marks ∧ c ≠ '\\') text.toList

private theorem natText_plain (n : Nat) : Plain (natText n) := by
  intro c member
  constructor
  · intro mark
    refine not_mem_natText ?_ n member
    simp only [marks, List.mem_cons, List.not_mem_nil, or_false] at mark
    rcases mark with rfl | rfl | rfl | rfl | rfl | rfl <;> rfl
  · rintro rfl
    exact not_mem_natText rfl n member

theorem Plain.append {first second : String} (firstPlain : Plain first)
    (secondPlain : Plain second) : Plain (first ++ second) := by
  intro c member
  rw [String.toList_append] at member
  rcases List.mem_append.mp member with member | member
  · exact firstPlain c member
  · exact secondPlain c member

/-- A port is cut off by its angle brackets, and the name of the pin goes on up to the next mark. -/
theorem cut_fieldText {letter : String} (plain : Plain letter) (entry : Pin × Nat)
    (rest : List Char) :
    cut false ((fieldText letter entry).toList ++ rest) =
      { pieces := ('<', (pinField letter entry).1.toList) ::
          ('>', (pinField letter entry).2.toList ++ (cut false rest).front) ::
          (cut false rest).pieces } := by
  have spelled : (fieldText letter entry).toList ++ rest =
      '<' :: ((pinField letter entry).1.toList ++ '>' :: ((escape entry.1.name).toList ++ rest)) := by
    simp [fieldText, pinField]
  have port : Plain (pinField letter entry).1 := plain.append (natText_plain entry.2)
  rw [spelled, cut_mark (by decide), cut_plain port, cut_mark (by decide), cut_escape]
  simp [Cuttings.prepend, pinField]

/-- The fields of pins are read up to the brace that closes them. -/
theorem readFields_pinFields (letter : String) (plain : Plain letter) (pins : List Pin)
    (rest : List Char) :
    readFields (cut false ((pinFields letter pins).toList ++ (' ' :: '\x7d' :: rest))).pieces =
      some (portFields letter pins, (cut false rest).pieces) := by
  change readFields (cut false ((joinWith " | " (pins.zipIdx.map (fieldText letter))).toList ++
    (' ' :: '\x7d' :: rest))).pieces = some (pins.zipIdx.map (pinField letter), _)
  induction pins.zipIdx with
  | nil => simp [joinWith, cut, marks, Cuttings.prepend, readFields]
  | cons entry entries ih =>
    cases entries with
    | nil =>
      rw [List.map_singleton, joinWith, cut_fieldText plain]
      simp [cut, marks, Cuttings.prepend, readFields, readField]
    | cons next entries =>
      have bar (rest : List Char) : cut false (" | ".toList ++ rest) =
          ⟨[' '], ('|', ' ' :: (cut false rest).front) :: (cut false rest).pieces⟩ := by
        simp [cut, marks, Cuttings.prepend]
      simp only [List.map_cons, joinWith, String.toList_append, List.append_assoc] at ih ⊢
      rw [cut_fieldText plain, bar]
      simp [readFields, readField, ih]

/-! ### Records -/

theorem portFields_distinct (letter : String) (pins : List Pin) :
    ((portFields letter pins).map (·.1)).Nodup := by
  have ports : (portFields letter pins).map (·.1) =
      (List.range pins.length).map fun i => letter ++ natText (i + 0) := by
    have indices : pins.zipIdx.map (·.2) = List.range pins.length := by
      simp [List.range_eq_range']
    rw [portFields, List.map_map, ← indices, List.map_map]
    rfl
  rw [ports]
  exact List.nodup_range.map (numberedName_injective letter 0)

/-- The record that a node is drawn as. -/
def recordOf (node : Node) : Label where
  title := joinWith "\n" (node.label :: node.annotations)
  inputs := portFields "i" node.inputs
  outputs := portFields "o" node.outputs

/-- Every field has a port of its own. -/
theorem recordOf_distinct (node : Node) : ((recordOf node).fields.map (·.1)).Nodup := by
  rw [Label.fields, List.map_append, List.nodup_append]
  refine ⟨portFields_distinct _ _, portFields_distinct _ _, ?_⟩
  -- The ports of the two sides start with different letters.
  intro input inputMember output outputMember same
  simp only [recordOf, portFields, List.map_map, List.mem_map] at inputMember outputMember
  obtain ⟨_, _, rfl⟩ := inputMember
  obtain ⟨_, _, rfl⟩ := outputMember
  have letters := congrArg (·.toList.head?) same
  simp [pinField] at letters

/-- A record label is read back, whatever the texts in it. -/
theorem readLabel?_recordLabel (node : Node) :
    readLabel? (cut false ((recordLabel node).toList ++ "\"]".toList)).pieces =
      some (recordOf node) := by
  have spelled : (recordLabel node).toList ++ "\"]".toList =
      "\x7b \x7b".toList ++ ((title node).toList ++ ("\x7d | \x7b \x7b ".toList ++
        ((pinFields "i" node.inputs).toList ++ (' ' :: '\x7d' :: (" | \x7b ".toList ++
          ((pinFields "o" node.outputs).toList ++ (' ' :: '\x7d' :: " \x7d \x7d\"]".toList))))))) := by
    simp [recordLabel]
  have opening (rest : List Char) : (cut false ("\x7b \x7b".toList ++ rest)).pieces =
      ('\x7b', [' ']) :: ('\x7b', (cut false rest).front) :: (cut false rest).pieces := by
    simp [cut, marks, Cuttings.prepend]
  have middle (rest : List Char) : cut false ("\x7d | \x7b \x7b ".toList ++ rest) =
      { pieces := ('\x7d', [' ']) :: ('|', [' ']) :: ('\x7b', [' ']) ::
          ('\x7b', ' ' :: (cut false rest).front) :: (cut false rest).pieces } := by
    simp [cut, marks, Cuttings.prepend]
  have between (rest : List Char) : (cut false (" | \x7b ".toList ++ rest)).pieces =
      ('|', [' ']) :: ('\x7b', ' ' :: (cut false rest).front) :: (cut false rest).pieces := by
    simp [cut, marks, Cuttings.prepend]
  have closing : (cut false " \x7d \x7d\"]".toList).pieces = closingPieces := by
    simp [cut, marks, Cuttings.prepend, closingPieces]
  have inputs := readFields_pinFields "i" (by decide) node.inputs
  have outputs := readFields_pinFields "o" (by decide) node.outputs
  rw [spelled, opening, title, cut_joinWith_escape, middle]
  simp only [Cuttings.prepend, List.append_nil, String.ofList_toList, readLabel?, inputs, between,
    Option.bind_eq_bind, Option.bind_some, List.drop_succ_cons, List.drop_zero, outputs, closing]
  have distinct := recordOf_distinct node
  rw [recordOf] at distinct ⊢
  simp [distinct]

end ScriptFlow.Dot
