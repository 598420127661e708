import Mathlib.Tactic.Common
import ScriptFlow.CommandLine.Options

/-! Which command lines are accepted. An argument that goes on is the package file, a flag, or an
option with its value, and what is read of a command line never changes what its rest means. So a
command line is accepted exactly if it consists of such arguments and one of them is the package
file, and a question for help in it is answered whatever comes after. -/
namespace ScriptFlow.CommandLine

/-- Reading goes on over one argument, or an option with its value: what they make of the package
file and the options so far. -/
inductive Reads : Option String → Options → List String → Option String → Options → Prop where
  | package {options : Options} {path : String} (plain : startsWithText "-" path = false) :
      Reads none options [path] (some path) options
  | flag {file : Option String} {options changed : Options} {argument : String}
      (known : flag? options argument = some changed) : Reads file options [argument] file changed
  | value {file : Option String} {options changed : Options} {option value : String}
      (takes : option ∈ valueOptions) (accepted : withValue options option value = .ok changed) :
      Reads file options [option, value] file changed

/-- Reading goes on over a list of arguments. -/
inductive ReadsAll : Option String → Options → List String → Option String → Options → Prop where
  | done (file : Option String) (options : Options) : ReadsAll file options [] file options
  | step {file file' file'' : Option String} {options options' options'' : Options}
      {words rest : List String} (first : Reads file options words file' options')
      (others : ReadsAll file' options' rest file'' options'') :
      ReadsAll file options (words ++ rest) file'' options''

variable {file file' : Option String} {options options' chosen : Options}
  {words rest arguments : List String} {package argument : String}

private theorem flag?_of_plain (plain : startsWithText "-" argument = false) :
    flag? options argument = none := by
  unfold flag?
  split <;> first | rfl | exact absurd plain (by decide)

private theorem not_valueOption_of_plain (plain : startsWithText "-" argument = false) :
    argument ∉ valueOptions := by
  intro member
  simp only [valueOptions, List.mem_cons, List.not_mem_nil, or_false] at member
  obtain rfl | rfl | rfl | rfl := member <;> exact absurd plain (by decide)

private theorem not_question_of_plain (plain : startsWithText "-" argument = false) :
    ¬ (argument = "--help" ∨ argument = "-h") ∧ ¬ (argument = "--version" ∨ argument = "-V") := by
  refine ⟨?_, ?_⟩ <;> rintro (rfl | rfl) <;> exact absurd plain (by decide)

/-- What goes on is read as such, and leaves the rest of the command line to be read. -/
theorem requestFrom_reads (reads : Reads file options words file' options') :
    requestFrom file options (words ++ rest) = requestFrom file' options' rest := by
  cases reads with
  | package plain =>
    obtain ⟨noHelp, noVersion⟩ := not_question_of_plain plain
    rw [List.singleton_append, requestFrom.eq_def]
    simp only [noHelp, noVersion, not_valueOption_of_plain plain, flag?_of_plain plain, plain,
      if_false, Bool.false_eq_true, Option.isSome_none]
  | @flag _ _ _ argument known =>
    have own := known
    unfold flag? at own
    rw [List.singleton_append, requestFrom.eq_def]
    split at own
    case h_7 => cases own
    all_goals simp [valueOptions, known]
  | value takes accepted =>
    have own := takes
    simp only [valueOptions, List.mem_cons, List.not_mem_nil, or_false] at own
    rw [List.cons_append, List.singleton_append, requestFrom]
    obtain rfl | rfl | rfl | rfl := own <;> simp [takes, accepted]

/-- What has been read of a command line does not change what its rest means. -/
theorem requestFrom_readsAll (reads : ReadsAll file options words file' options') :
    requestFrom file options (words ++ rest) = requestFrom file' options' rest := by
  induction reads with
  | done => rfl
  | step first _ ih => rw [List.append_assoc, requestFrom_reads first, ih]

private theorem readsAll_of_requestFrom
    (accepted : requestFrom file options arguments = .work package chosen) :
    ReadsAll file options arguments (some package) chosen := by
  fun_induction requestFrom file options arguments
  case case1 =>
    cases accepted
    exact .done _ _
  case case6 takes _ _ _ read ih => exact .step (.value takes read) (ih accepted)
  case case8 known ih => exact .step (.flag known) (ih accepted)
  case case11 file _ _ _ _ _ _ _ noOption noFile ih =>
    obtain rfl : file = none := Option.not_isSome_iff_eq_none.mp noFile
    exact .step (.package (Bool.not_eq_true _ ▸ noOption)) (ih accepted)
  -- The other arguments end the reading with something else.
  all_goals cases accepted

/-- A command line is accepted exactly if it can be read to its end, with a package file. -/
theorem requestOf_eq_work_iff :
    requestOf arguments = .work package chosen ↔
      ReadsAll none {} arguments (some package) chosen := by
  constructor
  · exact readsAll_of_requestFrom
  · intro reads
    have whole : requestFrom none {} (arguments ++ []) = _ := requestFrom_readsAll reads
    rw [List.append_nil] at whole
    rw [requestOf, whole, requestFrom]

/-- A command line can be read to its end in one way only. -/
theorem ReadsAll.unique {other : String} {chosen' : Options}
    (first : ReadsAll none {} arguments (some package) chosen)
    (second : ReadsAll none {} arguments (some other) chosen') :
    package = other ∧ chosen = chosen' := by
  rw [← requestOf_eq_work_iff] at first second
  exact Request.work.inj (first.symm.trans second)

/-- A question for help, or for the version, is answered whatever comes after it. -/
theorem requestOf_help (reads : ReadsAll none {} words file options)
    (asks : argument = "--help" ∨ argument = "-h") :
    requestOf (words ++ argument :: rest) = .help := by
  rw [requestOf, requestFrom_readsAll reads, requestFrom.eq_def]
  simp only [asks, if_true]

@[inherit_doc requestOf_help]
theorem requestOf_version (reads : ReadsAll none {} words file options)
    (asks : argument = "--version" ∨ argument = "-V") :
    requestOf (words ++ argument :: rest) = .version := by
  have other : ¬ (argument = "--help" ∨ argument = "-h") := by
    rintro (rfl | rfl) <;> exact absurd asks (by decide)
  rw [requestOf, requestFrom_readsAll reads, requestFrom.eq_def]
  simp only [other, asks, if_true, if_false]

/-- Options that ask for nothing leave the settings as they are. -/
theorem Options.override_default (settings : Settings) :
    ({} : Options).override settings = settings := by
  simp [override]

/-- Settings that take the options into account are not changed by them again. -/
theorem Options.override_override (settings : Settings) :
    options.override (options.override settings) = options.override settings := by
  have again (own given : Option GraphMode) (mode : GraphMode) (same : own = given) :
      own.getD (given.getD mode) = given.getD mode := by
    subst same
    cases own <;> rfl
  simp [override, again]

end ScriptFlow.CommandLine
