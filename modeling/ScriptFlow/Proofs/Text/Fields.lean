import Mathlib.Data.List.TakeWhile
import ScriptFlow.Text.Blank

/-! Lines and fields of a text. A text that is cut at some of its characters is cut afresh behind
each of them, so that no piece depends on what stands beyond its ends. The fields of a line are
therefore its words, whatever the blanks around them, and a carriage return in front of a line feed
is one blank more. -/
namespace ScriptFlow

variable {cut : Char → Bool}

private theorem piecesOnto_eq (piece text : List Char) :
    piecesOnto cut piece text = (text.splitOnP cut).modifyHead (piece.reverse ++ ·) := by
  induction text generalizing piece with
  | nil => simp [piecesOnto]
  | cons c rest ih =>
    rw [piecesOnto, List.splitOnP_cons_eq_if_modifyHead]
    split
    · rw [ih]
      cases rest.splitOnP cut <;> simp
    · simp [ih, Function.comp_def]

theorem pieces_eq_splitOnP (text : List Char) : pieces cut text = text.splitOnP cut := by
  rw [pieces, piecesOnto_eq]
  cases text.splitOnP cut <;> rfl

/-! ### Fields -/

/-- The line is cut into fields at its blanks: a field is a word without blanks, and blanks stand
between the fields and perhaps around them. -/
inductive CutInto : List Char → List (List Char) → Prop
  | blank {line : List Char} : (∀ c ∈ line, isBlank c = true) → CutInto line []
  | field {indent word rest : List Char} {fields : List (List Char)} :
    (∀ c ∈ indent, isBlank c = true) → word ≠ [] → (∀ c ∈ word, isBlank c = false) →
    (∀ c ∈ rest.head?, isBlank c = true) → CutInto rest fields →
    CutInto (indent ++ word ++ rest) (word :: fields)

theorem fieldsOf_cut {c : Char} (blank : isBlank c = true) (first second : List Char) :
    fieldsOf (first ++ c :: second) = fieldsOf first ++ fieldsOf second := by
  simp only [fieldsOf, pieces_eq_splitOnP, List.splitOnP_append_cons first second blank,
    List.filter_append]

theorem fieldsOf_nil : fieldsOf [] = [] := by
  simp [fieldsOf, pieces_eq_splitOnP]

theorem fieldsOf_snoc {c : Char} (blank : isBlank c = true) (line : List Char) :
    fieldsOf (line ++ [c]) = fieldsOf line := by
  rw [fieldsOf_cut blank, fieldsOf_nil, List.append_nil]

theorem fieldsOf_indent {indent : List Char} (blank : ∀ c ∈ indent, isBlank c = true)
    (rest : List Char) : fieldsOf (indent ++ rest) = fieldsOf rest := by
  induction indent with
  | nil => rfl
  | cons c indent ih =>
    have first := fieldsOf_cut (blank c (by simp)) [] (indent ++ rest)
    rw [fieldsOf_nil] at first
    exact first.trans (ih fun c member => blank c (List.mem_cons_of_mem _ member))

/-- A word is the only field of itself. -/
theorem fieldsOf_word {word : List Char} (written : word ≠ [])
    (solid : ∀ c ∈ word, isBlank c = false) : fieldsOf word = [word] := by
  rw [fieldsOf, pieces_eq_splitOnP, List.splitOnP_eq_singleton solid]
  simp [written]

theorem fieldsOf_field {word rest : List Char} (written : word ≠ [])
    (solid : ∀ c ∈ word, isBlank c = false) (ends : ∀ c ∈ rest.head?, isBlank c = true) :
    fieldsOf (word ++ rest) = word :: fieldsOf rest := by
  cases rest with
  | nil => simp [fieldsOf_word written solid, fieldsOf_nil]
  | cons c rest =>
    have blank : isBlank c = true := ends c rfl
    have after := fieldsOf_cut blank [] rest
    rw [List.nil_append, fieldsOf_nil] at after
    rw [fieldsOf_cut blank, fieldsOf_word written solid, after]
    rfl

private theorem cutInto_fieldsOf (line : List Char) : CutInto line (fieldsOf line) := by
  -- The induction takes the first word away.
  induction size : line.length using Nat.strongRecOn generalizing line with
  | ind n ih =>
    subst size
    have indented : line.takeWhile isBlank ++ line.dropWhile isBlank = line :=
      List.takeWhile_append_dropWhile
    have blank : ∀ c ∈ line.takeWhile isBlank, isBlank c = true := fun _ => List.mem_takeWhile_imp
    rcases remains : line.dropWhile isBlank with _ | ⟨c, rest⟩
    · rw [remains, List.append_nil] at indented
      rw [indented] at blank
      have none := fieldsOf_indent blank []
      rw [List.append_nil, fieldsOf_nil] at none
      rw [none]
      exact .blank blank
    · have head : isBlank c = false := by
        have stopped := List.head_dropWhile_not isBlank (by simp [remains] : line.dropWhile isBlank ≠ [])
        simpa [remains] using stopped
      rw [remains] at indented
      have spelled : (c :: rest).takeWhile (! isBlank ·) ++ (c :: rest).dropWhile (! isBlank ·) =
          c :: rest := List.takeWhile_append_dropWhile
      have written : (c :: rest).takeWhile (! isBlank ·) ≠ [] := by simp [head]
      have solid : ∀ d ∈ (c :: rest).takeWhile (! isBlank ·), isBlank d = false := by
        intro d member
        simpa using List.mem_takeWhile_imp member
      have ends : ∀ d ∈ ((c :: rest).dropWhile (! isBlank ·)).head?, isBlank d = true := by
        intro d first
        have stopped := List.head?_dropWhile_not (! isBlank ·) (c :: rest)
        rw [first] at stopped
        simpa using stopped
      generalize (c :: rest).takeWhile (! isBlank ·) = word at spelled written solid
      generalize (c :: rest).dropWhile (! isBlank ·) = tail at spelled ends
      rw [← indented, ← spelled, fieldsOf_indent blank, fieldsOf_field written solid ends,
        ← List.append_assoc]
      refine .field blank written solid ends (ih tail.length ?_ tail rfl)
      have longer := List.length_pos_iff.mpr written
      rw [← indented, ← spelled, List.length_append, List.length_append]
      omega

/-- Cutting a line at its blanks has one outcome. -/
theorem cutInto_iff {line : List Char} {fields : List (List Char)} :
    CutInto line fields ↔ fieldsOf line = fields := by
  constructor
  · intro cutting
    induction cutting with
    | blank blank =>
      have none := fieldsOf_indent blank []
      rwa [List.append_nil, fieldsOf_nil] at none
    | field blank written solid ends more ih =>
      rw [List.append_assoc, fieldsOf_indent blank, fieldsOf_field written solid ends, ih]
  · rintro rfl
    exact cutInto_fieldsOf line

/-! ### Lines -/

private theorem fieldsOf_dropReturn (line : List Char) :
    fieldsOf (dropReturn line) = fieldsOf line := by
  unfold dropReturn
  split
  · rename_i rest reversed
    have spelled : line = rest.reverse ++ ['\r'] := by
      rw [← List.reverse_reverse line, reversed, List.reverse_cons]
    rw [spelled, fieldsOf_snoc (by decide)]
  · rfl

/-- What is read from the fields of each line does not depend on how the lines end. -/
theorem filterMap_linesOf {α : Type} (read : List (List Char) → Option α) (bare : read [] = none)
    (text : List Char) : (linesOf text).filterMap (fun line => read (fieldsOf line)) =
      (text.splitOnP (· = '\n')).filterMap fun line => read (fieldsOf line) := by
  unfold linesOf
  rw [pieces_eq_splitOnP]
  split
  · rename_i none
    exact absurd (List.reverse_eq_nil_iff.mp none) (List.splitOnP_ne_nil _ _)
  · rename_i last complete reversed
    have spelled : text.splitOnP (· = '\n') = complete.reverse ++ [last] := by
      rw [← List.reverse_reverse (text.splitOnP _), reversed, List.reverse_cons]
    rw [spelled, ← List.map_reverse, List.filterMap_append, List.filterMap_append,
      List.filterMap_map]
    simp only [Function.comp_def, fieldsOf_dropReturn]
    cases last with
    | nil => simp [fieldsOf_nil, bare]
    | cons c rest => rfl

end ScriptFlow
