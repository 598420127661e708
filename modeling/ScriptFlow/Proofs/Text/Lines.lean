import Mathlib.Data.List.Basic
import ScriptFlow.Proofs.Number.Digits

/-! Lines of a text. A text is cut at its newlines; where every line is ended by one, what follows
the last newline is no line. Texts that are written a line each come back as they are exactly when
no newline is in them, and otherwise as more lines that spell the same text. -/
namespace ScriptFlow

/-- A text cut at its newlines. -/
def cutLines (text : String) : List String := (text.toList.splitOn '\n').map String.ofList

/-- The lines of a text, each ended by a newline. -/
def lines (text : String) : List String := (cutLines text).dropLast

/-- No newline is in the text. -/
def OneLine (text : String) : Prop := '\n' ∉ text.toList

instance (text : String) : Decidable (OneLine text) :=
  inferInstanceAs (Decidable ('\n' ∉ text.toList))

/-- How many newlines are in a text. -/
def newlines (text : String) : Nat := text.toList.count '\n'

/-! ### Newlines -/

theorem newlines_eq_zero_iff (text : String) : newlines text = 0 ↔ OneLine text :=
  List.count_eq_zero

theorem newlines_append (first second : String) :
    newlines (first ++ second) = newlines first + newlines second := by
  simp [newlines]

/-- A text that is written out is looked at character by character. -/
theorem newlines_ofList {text : List Char} (clean : text.count '\n' = 0) :
    newlines (String.ofList text) = 0 := by
  rw [newlines, String.toList_ofList, clean]

@[simp] theorem oneLine_append {first second : String} :
    OneLine (first ++ second) ↔ OneLine first ∧ OneLine second := by
  rw [OneLine, String.toList_append, List.mem_append, not_or]
  rfl

theorem oneLine_natText (n : Nat) : OneLine (natText n) := not_mem_natText rfl n

@[simp] theorem count_newline_natText (n : Nat) : (natText n).toList.count '\n' = 0 :=
  List.count_eq_zero.mpr (oneLine_natText n)

@[simp] theorem count_newline_intText (n : Int) : (intText n).toList.count '\n' = 0 := by
  cases n with
  | ofNat n => exact count_newline_natText n
  | negSucc n => simp [intText]

/-! ### Cutting -/

theorem length_cutLines (text : String) : (cutLines text).length = newlines text + 1 := by
  rw [cutLines, List.length_map, newlines]
  induction text.toList with
  | nil => rfl
  | cons c rest ih =>
    rw [List.splitOn_cons_eq_if_modifyHead, List.count_cons]
    split <;> simp [*]

theorem cutLines_of_oneLine {text : String} (one : OneLine text) : cutLines text = [text] := by
  rw [cutLines, List.splitOn_eq_singleton one]
  simp

private theorem splitOn_append_of_notMem {front text first : List Char} {more : List (List Char)}
    (clean : '\n' ∉ front) (cut : text.splitOn '\n' = first :: more) :
    (front ++ text).splitOn '\n' = (front ++ first) :: more := by
  induction front with
  | nil => exact cut
  | cons c front ih =>
    obtain ⟨other, clean⟩ := List.ne_and_not_mem_of_not_mem_cons clean
    rw [List.cons_append, List.splitOn_cons_eq_if_modifyHead, ih clean]
    simp [other.symm]

/-- What has no newline and is put in front of a text comes in front of its first line. -/
theorem cutLines_append {front : String} (one : OneLine front) (text : String) :
    ∃ rest more, cutLines (front ++ text) = (front ++ rest) :: more := by
  obtain ⟨first, more, cut⟩ :=
    List.exists_cons_of_ne_nil (List.splitOn_ne_nil '\n' text.toList)
  refine ⟨String.ofList first, more.map String.ofList, ?_⟩
  rw [cutLines, String.toList_append, splitOn_append_of_notMem one cut, List.map_cons,
    String.ofList_append, String.ofList_toList]

private theorem flatMap_splitOn (text : List Char) :
    (text.splitOn '\n').flatMap (· ++ ['\n']) = text ++ ['\n'] := by
  induction text with
  | nil => rfl
  | cons c rest ih =>
    rw [List.splitOn_cons_eq_if_modifyHead]
    split
    · simp_all
    · obtain ⟨first, more, cut⟩ := List.exists_cons_of_ne_nil (List.splitOn_ne_nil '\n' rest)
      rw [cut, List.flatMap_cons] at ih
      rw [cut, List.modifyHead_cons, List.flatMap_cons, List.cons_append, List.cons_append, ih]
      rfl

/-- The lines of a text, each with a newline behind it, are the text with a newline behind it. -/
theorem join_cutLines (text : String) :
    String.join ((cutLines text).map (· ++ "\n")) = text ++ "\n" := by
  rw [← String.toList_inj, String.toList_join, cutLines]
  simpa [List.flatMap_map] using flatMap_splitOn text.toList

/-! ### Texts written a line each -/

private theorem lines_append_newline (text rest : String) :
    lines (text ++ "\n" ++ rest) = cutLines text ++ lines rest := by
  have spelled : (text ++ "\n" ++ rest).toList = text.toList ++ '\n' :: rest.toList := by simp
  rw [lines, cutLines, spelled, List.splitOn_append_cons_self, List.map_append,
    List.dropLast_append_of_ne_nil (by simp)]
  rfl

/-- Lines with newlines in them are more lines. -/
theorem lines_join_cut (texts : List String) :
    lines (String.join (texts.map (· ++ "\n"))) = texts.flatMap cutLines := by
  induction texts with
  | nil => rfl
  | cons text rest ih =>
    rw [List.map_cons, String.join_cons, lines_append_newline, ih, List.flatMap_cons]

theorem lines_join {texts : List String} (each : ∀ text ∈ texts, OneLine text) :
    lines (String.join (texts.map (· ++ "\n"))) = texts := by
  rw [lines_join_cut, List.flatMap_congr fun text member => cutLines_of_oneLine (each text member)]
  exact List.flatMap_singleton' texts

/-- No line of a text is lost whose last line ends. -/
theorem join_lines (texts : List String) :
    String.join ((lines (String.join (texts.map (· ++ "\n")))).map (· ++ "\n")) =
      String.join (texts.map (· ++ "\n")) := by
  rw [lines_join_cut]
  induction texts with
  | nil => rfl
  | cons text rest ih =>
    rw [List.flatMap_cons, List.map_append, String.join_append, ih, join_cutLines, List.map_cons,
      String.join_cons]

end ScriptFlow
