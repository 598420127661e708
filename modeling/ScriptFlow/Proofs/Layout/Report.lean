import ScriptFlow.Graph.Placement
import ScriptFlow.Proofs.Text.Fields

/-! Layout reports. A report is made of lines, and a line states where a node is by its first four
fields; all else about it does not matter. What a report says is therefore what its lines state one
by one, however they end and whatever stands between them. -/
namespace ScriptFlow

/-! ### Lines that state a place -/

/-- The field names a node: its number, perhaps with quotes around it. -/
def NamesNode (field : List Char) (id : NodeId) : Prop :=
  ∃ opening number closing : List Char, field = opening ++ number ++ closing ∧
    (∀ c ∈ opening, c = '"') ∧ (∀ c ∈ closing, c = '"') ∧ wordLiteral? number = some id

/-- The line states where a node is: after the word `node` it has fields for the number of the node
and for its two coordinates. -/
def Placement.StatedBy (p : Placement) (line : List Char) : Prop :=
  ∃ id x y more, CutInto line ("node".toList :: id :: x :: y :: more) ∧ NamesNode id p.node ∧
    singleLiteral? x = some p.x ∧ singleLiteral? y = some p.y

/-- A number that is read to the end has digits only. -/
private theorem digits_of_spanDigits {read digits : List (Fin 10)} {cs : List Char}
    (spanned : spanDigits read cs = (digits, [])) : ∀ c ∈ cs, (digitOf? c).isSome = true := by
  induction cs generalizing read with
  | nil => simp
  | cons c rest ih =>
    rw [spanDigits] at spanned
    cases digit : digitOf? c with
    | none => simp [digit] at spanned
    | some d =>
      simp only [digit] at spanned
      intro other member
      rcases List.mem_cons.mp member with rfl | member
      · simp [digit]
      · exact ih spanned other member

/-- What is read as a number is not empty and has no quotes. -/
private theorem wordLiteral?_unquoted {number : List Char} {id : Nat}
    (read : wordLiteral? number = some id) : number ≠ [] ∧ '"' ∉ number := by
  have unquoted {digits : List (Fin 10)} {cs : List Char}
      (spanned : spanDigits [] cs = (digits, [])) : '"' ∉ cs := by
    intro member
    have digit := digits_of_spanDigits spanned _ member
    revert digit
    decide
  unfold wordLiteral? at read
  dsimp only at read
  split at read
  · cases read
  · rename_i digits empty spanned
    split at spanned
    · rename_i rest
      exact ⟨by simp, by simpa using unquoted spanned⟩
    · refine ⟨?_, unquoted spanned⟩
      rintro rfl
      cases spanned
      exact empty rfl
  · cases read

private theorem dropWhile_quotes {opening rest : List Char} (quotes : ∀ c ∈ opening, c = '"')
    (ends : ∀ c ∈ rest.head?, c ≠ '"') : (opening ++ rest).dropWhile (· = '"') = rest := by
  rw [List.dropWhile_append_of_pos (by simpa using quotes)]
  cases rest with
  | nil => rfl
  | cons c rest => simp [ends c rfl]

theorem namesNode_iff {field : List Char} {id : NodeId} :
    NamesNode field id ↔ wordLiteral? (Placement.unquote field) = some id := by
  constructor
  · rintro ⟨opening, number, closing, rfl, opens, closes, read⟩
    obtain ⟨written, unquoted⟩ := wordLiteral?_unquoted read
    have first : ∀ c ∈ (number ++ closing).head?, c ≠ '"' := by
      rintro c head rfl
      have own : number.head?.isSome = true := List.isSome_head?.mpr written
      rw [List.head?_append, Option.or_of_isSome own] at head
      exact unquoted (List.mem_of_mem_head? head)
    have last : ∀ c ∈ number.reverse.head?, c ≠ '"' := by
      rintro c head rfl
      exact unquoted (List.mem_reverse.mp (List.mem_of_mem_head? head))
    rw [Placement.unquote, List.append_assoc, dropWhile_quotes opens first, List.reverse_append,
      dropWhile_quotes (by simpa using closes) last, List.reverse_reverse]
    exact read
  · intro read
    let inner := field.dropWhile (· = '"')
    refine ⟨field.takeWhile (· = '"'), _, (inner.reverse.takeWhile (· = '"')).reverse, ?_, ?_, ?_,
      read⟩
    · have closed : Placement.unquote field ++ (inner.reverse.takeWhile (· = '"')).reverse = inner := by
        rw [Placement.unquote, ← List.reverse_append, List.takeWhile_append_dropWhile,
          List.reverse_reverse]
      rw [List.append_assoc, closed, List.takeWhile_append_dropWhile]
    · intro c member
      simpa using List.mem_takeWhile_imp member
    · intro c member
      simpa using List.mem_takeWhile_imp (List.mem_reverse.mp member)

/-- The placement that the fields of a line state. -/
def Placement.ofFields? : List (List Char) → Option Placement
  | ['n', 'o', 'd', 'e'] :: id :: x :: y :: _ => do
    return ⟨← wordLiteral? (unquote id), ← singleLiteral? x, ← singleLiteral? y⟩
  | _ => none

namespace Placement

variable {p : Placement}

theorem ofLine?_eq (line : List Char) : ofLine? line = ofFields? (fieldsOf line) := by
  unfold ofLine? ofFields?
  rfl

/-- What is read from a line is what the line states. -/
theorem statedBy_iff {line : List Char} : p.StatedBy line ↔ ofLine? line = some p := by
  rw [ofLine?_eq]
  constructor
  · rintro ⟨id, x, y, more, fields, named, across, down⟩
    rw [cutInto_iff.mp fields]
    have spelled : "node".toList = ['n', 'o', 'd', 'e'] := rfl
    rw [spelled, ofFields?, namesNode_iff.mp named, across, down]
    rfl
  · intro read
    unfold ofFields? at read
    split at read
    · rename_i id x y more fields
      simp only [Option.bind_eq_bind, Option.bind_eq_some_iff, Option.pure_def,
        Option.some.injEq] at read
      obtain ⟨node, named, across, readAcross, down, readDown, rfl⟩ := read
      exact ⟨id, x, y, more, cutInto_iff.mpr fields, namesNode_iff.mpr named, readAcross, readDown⟩
    · cases read

/-- A line states at most one placement. -/
theorem StatedBy.unique {line : List Char} {q : Placement} (first : p.StatedBy line)
    (second : q.StatedBy line) : p = q := by
  rw [statedBy_iff] at first second
  exact Option.some.inj (first.symm.trans second)

end Placement

/-- The line states where some node is. -/
def WellFormedLine (line : List Char) : Prop := ∃ p : Placement, p.StatedBy line

theorem wellFormedLine_iff {line : List Char} :
    WellFormedLine line ↔ (Placement.ofLine? line).isSome = true := by
  simp only [WellFormedLine, Placement.statedBy_iff, Option.isSome_iff_exists]

instance (line : List Char) : Decidable (WellFormedLine line) :=
  decidable_of_iff _ wellFormedLine_iff.symm

/-! ### Reports and their lines -/

/-- How a line of a report ends. -/
inductive LineEnd where
  /-- With a line feed. -/
  | feed
  /-- With a carriage return and a line feed. -/
  | returnFeed
  deriving DecidableEq

/-- The characters that end a line. -/
def LineEnd.text : LineEnd → List Char
  | .feed => ['\n']
  | .returnFeed => ['\r', '\n']

/-- A line of a report. -/
structure ReportLine where
  content : List Char
  ending : LineEnd
  /-- A line does not go on after a line feed. -/
  whole : '\n' ∉ content := by decide

/-- A report as its lines. -/
structure Report where
  /-- The lines that end. -/
  lines : List ReportLine
  /-- What stands behind the end of the last of them. -/
  last : List Char := []
  whole : '\n' ∉ last := by decide

namespace Report

/-- The text of a report. -/
def text (report : Report) : String :=
  String.ofList ((report.lines.flatMap fun line => line.content ++ line.ending.text) ++ report.last)

/-- What stands in the lines of a report. -/
def contents (report : Report) : List (List Char) :=
  report.lines.map (·.content) ++ [report.last]

/-- Every text is that of a report. -/
theorem exists_text (answer : String) : ∃ report : Report, report.text = answer := by
  suffices made : ∀ cs : List Char, ∃ report : Report, report.text.toList = cs by
    obtain ⟨report, same⟩ := made answer.toList
    exact ⟨report, String.toList_inj.mp same⟩
  intro cs
  induction cs with
  | nil => exact ⟨⟨[], [], by simp⟩, rfl⟩
  | cons c rest ih =>
    obtain ⟨⟨lines, last, whole⟩, spelled⟩ := ih
    simp only [text, String.toList_ofList] at spelled ⊢
    by_cases feed : c = '\n'
    · subst feed
      exact ⟨⟨⟨[], .feed, by simp⟩ :: lines, last, whole⟩, by simp [LineEnd.text, ← spelled]⟩
    · cases lines with
      | nil =>
        refine ⟨⟨[], c :: last, ?_⟩, by simp [← spelled]⟩
        simpa [Ne.symm feed] using whole
      | cons line lines =>
        refine ⟨⟨⟨c :: line.content, line.ending, ?_⟩ :: lines, last, whole⟩, by simp [← spelled]⟩
        simpa [Ne.symm feed] using line.whole

/-- Behind a line the report is cut afresh. -/
private theorem splitOnP_line (line : ReportLine) (rest : List Char) :
    ((line.content ++ line.ending.text ++ rest).splitOnP (· = '\n')).filterMap Placement.ofLine? =
      (Placement.ofLine? line.content).toList ++
        (rest.splitOnP (· = '\n')).filterMap Placement.ofLine? := by
  have alone {content : List Char} (whole : '\n' ∉ content) :
      (content ++ '\n' :: rest).splitOnP (· = '\n') =
        content :: rest.splitOnP (· = '\n') := by
    rw [List.splitOnP_append_cons content rest (by simp), List.splitOnP_eq_singleton]
    · rfl
    · intro c member
      simpa using ne_of_mem_of_not_mem member whole
  have own (content : List Char) (more : List (List Char)) :
      (content :: more).filterMap Placement.ofLine? =
        (Placement.ofLine? content).toList ++ more.filterMap Placement.ofLine? := by
    cases read : Placement.ofLine? content <;> simp [read]
  obtain ⟨content, ending, whole⟩ := line
  cases ending with
  | feed =>
    rw [LineEnd.text, List.append_assoc, List.singleton_append, alone whole, own]
  | returnFeed =>
    have returned : '\n' ∉ content ++ ['\r'] := by simp [whole]
    have spelled : content ++ ['\r', '\n'] ++ rest = content ++ ['\r'] ++ '\n' :: rest := by simp
    rw [LineEnd.text, spelled, alone returned, own, Placement.ofLine?_eq,
      fieldsOf_snoc (by decide), ← Placement.ofLine?_eq]

/-- A report says what its lines state. -/
theorem ofReport_text (report : Report) :
    Placement.ofReport report.text = report.contents.filterMap Placement.ofLine? := by
  have cut (text : List Char) : (linesOf text).filterMap Placement.ofLine? =
      (text.splitOnP (· = '\n')).filterMap Placement.ofLine? := by
    simp only [funext Placement.ofLine?_eq]
    exact filterMap_linesOf _ rfl text
  obtain ⟨lines, last, whole⟩ := report
  rw [Placement.ofReport, cut, text, contents, String.toList_ofList]
  induction lines with
  | nil =>
    rw [List.flatMap_nil, List.nil_append, List.splitOnP_eq_singleton]
    · rfl
    · intro c member
      simpa using ne_of_mem_of_not_mem member whole
  | cons line lines ih =>
    rw [List.flatMap_cons, List.append_assoc, splitOnP_line, ih]
    cases read : Placement.ofLine? line.content <;> simp [read]

end Report

end ScriptFlow
