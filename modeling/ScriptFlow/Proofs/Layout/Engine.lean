import Mathlib.Data.List.Basic
import ScriptFlow.Layout.Engine

/-! Which program lays out a graph, and when its report counts. The programs are tried in order, and
only the first one that starts matters: nothing is tried after it, however it ends. If none starts,
the error is the latest refusal of a program that was there. -/
namespace ScriptFlow

/-- A path that leads to no running program. -/
def Refuses (launch : String → Launch) (path : String) : Prop :=
  ∃ fault, launch path = .refused fault

/-- The error that an attempt to start a program leaves behind, if the program was there. -/
def obstacle? (launch : String → Launch) (path : String) : Option LayoutError :=
  match launch path with
  | .started _ | .refused .missing => none
  | .refused fault => some (.notStarted path fault)

/-- A run that is through in time, wrote a text and ended well. -/
structure Run.Reports (run : Run) (milliseconds : Nat) (report : String) : Prop where
  /-- What it wrote is the text. -/
  wrote : ∃ output, run.exchange milliseconds = .finished output ∧
    String.fromUTF8? output = some report
  /-- Its status is zero. -/
  ended : run.ending = .exited 0

variable {launch : String → Launch} {last : Option LayoutError} {tried paths : List String}
  {milliseconds : Nat} {run : Run} {report path : String} {fault : FileFault} {error : LayoutError}

/-- An attempt that fails is remembered if the program was there, and the next path is tried. -/
private theorem firstLaunch_refused (refused : launch path = .refused fault) :
    firstLaunch launch last tried (path :: paths) =
      firstLaunch launch ((obstacle? launch path).or last) tried paths := by
  cases fault <;> simp [firstLaunch, obstacle?, refused]

/-- Paths that do not start only leave their errors behind. -/
theorem firstLaunch_append {before : List String} (refused : ∀ path ∈ before, Refuses launch path) :
    firstLaunch launch last tried (before ++ paths) =
      firstLaunch launch ((before.filterMap (obstacle? launch)).getLast?.or last) tried paths := by
  induction before generalizing last with
  | nil => rfl
  | cons path before ih =>
    obtain ⟨⟨fault, unstarted⟩, others⟩ := List.forall_mem_cons.mp refused
    rw [List.cons_append, firstLaunch_refused unstarted, ih others]
    cases remembered : obstacle? launch path with
    | none => rw [List.filterMap_cons_none remembered, Option.none_or]
    | some error =>
      rw [List.filterMap_cons_some remembered, List.getLast?_cons, Option.some_or]
      cases (before.filterMap (obstacle? launch)).getLast? <;> rfl

/-- Either every path is refused, or one starts and all before it are refused. -/
theorem refused_or_started (launch : String → Launch) (paths : List String) :
    (∀ path ∈ paths, Refuses launch path) ∨
      ∃ before path after run, paths = before ++ path :: after ∧
        (∀ earlier ∈ before, Refuses launch earlier) ∧ launch path = .started run := by
  induction paths with
  | nil => exact .inl (by simp)
  | cons path paths ih =>
    cases start : launch path with
    | started run =>
      exact .inr ⟨[], path, paths, run, rfl, by simp, start⟩
    | refused fault =>
      obtain refused | ⟨before, next, after, run, rfl, refused, started⟩ := ih
      · exact .inl (List.forall_mem_cons.mpr ⟨⟨fault, start⟩, refused⟩)
      · exact .inr ⟨path :: before, next, after, run, rfl,
          List.forall_mem_cons.mpr ⟨⟨fault, start⟩, refused⟩, started⟩

/-- What the first program that starts does is all that counts: paths after it are never tried, and
an error of it is not mended by another program. -/
theorem runEngine_started {before after : List String}
    (refused : ∀ earlier ∈ before, Refuses launch earlier) (started : launch path = .started run) :
    runEngine launch (before ++ path :: after) milliseconds = reportOf milliseconds run := by
  rw [runEngine, firstLaunch_append refused, firstLaunch, started]

/-- If nothing starts, the error is the latest one of a program that was there. -/
theorem runEngine_refused (refused : ∀ path ∈ paths, Refuses launch path) :
    runEngine launch paths milliseconds =
      .error ((paths.filterMap (obstacle? launch)).getLast?.getD (.notFound paths)) := by
  have unstarted : firstLaunch launch none paths (paths ++ []) = _ := firstLaunch_append refused
  rw [List.append_nil, Option.or_none, firstLaunch] at unstarted
  rw [runEngine, unstarted]

theorem reportOf_eq_ok_iff :
    reportOf milliseconds run = .ok report ↔ run.Reports milliseconds report := by
  rw [reportOf]
  constructor
  · intro reported
    split at reported
    · cases reported
    · cases reported
    · next output finished =>
      split at reported
      · cases reported
      · next text =>
        split at reported
        · next ended =>
          cases reported
          exact ⟨⟨output, finished, text⟩, ended⟩
        · cases reported
  · rintro ⟨⟨output, finished, text⟩, ended⟩
    simp only [finished, text, ended, if_true]

/-- There is a report exactly when some program starts, all paths before it are refused, and that
program reports it. -/
theorem runEngine_eq_ok_iff :
    runEngine launch paths milliseconds = .ok report ↔
      ∃ before path after run, paths = before ++ path :: after ∧
        (∀ earlier ∈ before, Refuses launch earlier) ∧ launch path = .started run ∧
        run.Reports milliseconds report := by
  constructor
  · intro reported
    obtain refused | ⟨before, path, after, run, rfl, refused, started⟩ :=
      refused_or_started launch paths
    · rw [runEngine_refused refused] at reported
      cases reported
    · rw [runEngine_started refused started, reportOf_eq_ok_iff] at reported
      exact ⟨before, path, after, run, rfl, refused, started, reported⟩
  · rintro ⟨before, path, after, run, rfl, refused, started, reports⟩
    rw [runEngine_started refused started, reportOf_eq_ok_iff]
    exact reports

/-- A program that has been started is never called not found. -/
private theorem reportOf_ne_notFound : reportOf milliseconds run ≠ .error (.notFound tried) := by
  intro reported
  rw [reportOf] at reported
  repeat' split at reported
  all_goals cases reported

private theorem obstacle?_ne_notFound : obstacle? launch path ≠ some (.notFound tried) := by
  rw [obstacle?]
  split <;> simp

/-- That no program is found is said exactly when there is none at any of the paths, and all of the
paths are named. -/
theorem runEngine_eq_notFound_iff :
    runEngine launch paths milliseconds = .error (.notFound tried) ↔
      tried = paths ∧ ∀ path ∈ paths, launch path = .refused .missing := by
  constructor
  · intro reported
    obtain refused | ⟨before, path, after, run, rfl, refused, started⟩ :=
      refused_or_started launch paths
    · rw [runEngine_refused refused] at reported
      cases latest : (paths.filterMap (obstacle? launch)).getLast? with
      | none =>
        rw [latest] at reported
        cases reported
        refine ⟨rfl, fun path member => ?_⟩
        have absent := List.filterMap_eq_nil_iff.mp (List.getLast?_eq_none_iff.mp latest) path member
        obtain ⟨fault, unstarted⟩ := refused path member
        cases fault <;> simp [obstacle?, unstarted] at absent ⊢
      | some error =>
        rw [latest] at reported
        cases reported
        obtain ⟨path, -, left⟩ := List.mem_filterMap.mp (List.mem_of_getLast? latest)
        exact absurd left obstacle?_ne_notFound
    · rw [runEngine_started refused started] at reported
      exact absurd reported reportOf_ne_notFound
  · rintro ⟨rfl, absent⟩
    have none_left : tried.filterMap (obstacle? launch) = [] :=
      List.filterMap_eq_nil_iff.mpr fun path member => by rw [obstacle?, absent path member]
    rw [runEngine_refused fun path member => ⟨_, absent path member⟩, none_left]
    rfl

end ScriptFlow
