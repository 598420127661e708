import Mathlib.Data.List.Nodup
import ScriptFlow.Graph.ExecShape
import ScriptFlow.Proofs.Value.Tree

/-! Names of input pins. The inputs of a node are told apart by their names, so a shape that gives
two inputs one name would feed them both from either side; no shape does. -/
namespace ScriptFlow

theorem natText_injective : Function.Injective natText := by
  intro m n same
  have digits : Nat.toDigits 10 m = Nat.toDigits 10 n := String.ofList_injective same
  rw [← Nat.ofDigitChars_ten_toDigits (n := m), digits, Nat.ofDigitChars_ten_toDigits]

/-- A name made from a number after fixed words tells the number. -/
theorem numberedName_injective (words : String) (shift : Nat) :
    Function.Injective fun i => words ++ natText (i + shift) := by
  intro i j same
  have numbers : natText (i + shift) = natText (j + shift) := by
    have characters := congrArg String.toList same
    simp only [String.toList_append, List.append_cancel_left_eq] at characters
    exact String.toList_inj.mp characters
  simpa using natText_injective numbers

/-- Names that start with different words are different. -/
theorem numberedName_ne {words name : String} {n : Nat}
    (different : ¬ words.toList <+: name.toList) : words ++ natText n ≠ name := by
  intro same
  exact different ⟨(natText n).toList, by rw [← same, String.toList_append]⟩

/-- The names of the inputs among parts, in order. -/
def inputNames {τ : Type} (parts : List (ValuePart τ)) : List String :=
  (inputsOf parts).map (·.1)

theorem inputsOf_numbered {τ : Type} (name : Nat → String) (values : List τ) :
    inputsOf (numbered name values) = values.zipIdx.map fun p => (name p.2, p.1) := by
  suffices general : ∀ k, inputsOf ((values.zipIdx k).map fun p => .operand (name p.2) p.1) =
      (values.zipIdx k).map fun p => (name p.2, p.1) from general 0
  induction values with
  | nil => intro k; rfl
  | cons value rest ih => intro k; simp [ih]

theorem inputNames_numbered {τ : Type} (name : Nat → String) (values : List τ) :
    inputNames (numbered name values) = (List.range values.length).map name := by
  have indices : values.zipIdx.map (·.2) = List.range values.length := by
    simp [List.range_eq_range']
  rw [inputNames, inputsOf_numbered, List.map_map, ← indices, List.map_map]
  rfl

theorem inputNames_numbered_nodup {τ : Type} (words : String) (shift : Nat) (values : List τ) :
    (inputNames (numbered (fun i => words ++ natText (i + shift)) values)).Nodup := by
  rw [inputNames_numbered]
  exact List.nodup_range.map (numberedName_injective words shift)

theorem owner_not_numbered {τ : Type} {words : String} {shift : Nat} {values : List τ}
    (different : ¬ words.toList <+: "owner".toList) :
    "owner" ∉ inputNames (numbered (fun i => words ++ natText (i + shift)) values) := by
  rw [inputNames_numbered]
  intro member
  obtain ⟨i, _, same⟩ := List.mem_map.mp member
  exact numberedName_ne different same

/-- The name of an input for one side of a case. -/
def caseName (i : Nat) (side : String) : String := "case_" ++ natText (i + 1) ++ side

theorem caseName_injective (side : String) : Function.Injective (caseName · side) := by
  intro i j same
  have characters := congrArg String.toList same
  simp only [caseName, String.toList_append, List.append_cancel_right_eq] at characters
  refine numberedName_injective "case_" 1 (String.toList_inj.mp ?_)
  simpa only [String.toList_append] using characters

/-- The two sides of cases never share a name. -/
theorem caseName_sides (i j : Nat) : caseName i "_value" ≠ caseName j "_result" := by
  intro same
  have last := congrArg (·.toList.getLast?) same
  have value : "_value".toList.getLast? = some 'e' := rfl
  have result : "_result".toList.getLast? = some 't' := rfl
  simp only [caseName, String.toList_append, List.getLast?_append, value, result] at last
  cases last

private theorem caseName_ne {name : String} {side : String} {i : Nat}
    (different : ¬ "case_".toList <+: name.toList) : caseName i side ≠ name := by
  intro same
  refine different ⟨(natText (i + 1)).toList ++ side.toList, ?_⟩
  rw [← same, caseName, String.toList_append, String.toList_append, List.append_assoc]

theorem inputNames_cases (cases : List (ValueTree × ValueTree)) :
    inputNames (caseParts cases) =
      (List.range cases.length).flatMap fun i => [caseName i "_value", caseName i "_result"] := by
  rw [List.range_eq_range']
  unfold caseParts
  generalize 0 = k
  induction cases generalizing k with
  | nil => rfl
  | cons c rest ih =>
    have tail := ih (k + 1)
    simp only [inputNames] at tail
    simp [inputNames, List.range'_succ, tail, caseName]

theorem inputNames_cases_nodup (cases : List (ValueTree × ValueTree)) :
    (inputNames (caseParts cases)).Nodup := by
  rw [inputNames_cases, List.nodup_flatMap]
  refine ⟨fun i _ => by simp [caseName_sides], List.nodup_range.imp fun different => ?_⟩
  simp only [Function.onFun, List.disjoint_iff_ne, List.mem_cons, List.not_mem_nil, or_false]
  rintro first (rfl | rfl) second (rfl | rfl)
  · exact fun same => different (caseName_injective _ same)
  · exact caseName_sides _ _
  · exact (caseName_sides _ _).symm
  · exact fun same => different (caseName_injective _ same)

theorem not_mem_inputNames_cases {cases : List (ValueTree × ValueTree)} {name : String}
    (different : ¬ "case_".toList <+: name.toList) : name ∉ inputNames (caseParts cases) := by
  rw [inputNames_cases]
  intro member
  obtain ⟨i, _, same⟩ := List.mem_flatMap.mp member
  simp only [List.mem_cons, List.not_mem_nil, or_false] at same
  rcases same with same | same <;> exact caseName_ne different same.symm

end ScriptFlow
