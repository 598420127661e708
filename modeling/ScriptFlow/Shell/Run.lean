import ScriptFlow.Shell.Redirect
import ScriptFlow.Shell.Script

/-!
Running commands. Every command is carried out by a function of the state; loops are repeated up to
a bound, beyond which they count as endless.
-/

namespace ScriptFlow.Shell

/-- An action after which the script ends if it failed, its failure was not looked at and the
settings say so. -/
def checked (looked : Bool) (action : Action) : Action := fun state =>
  match action state with
  | (.running, state) =>
    if state.endsOnFailure ∧ ¬ looked ∧ state.status ≠ 0 then (.exited, state)
    else (.running, state)
  | ended => ended

/-- The status for a program that cannot be started. -/
def faultStatus : FileFault → Nat
  | .missing | .notDirectory | .tooLong | .tooManyLevels => 127
  | _ => 126

/-- Runs a program and waits for it; a program without a known form is run as a script. If the
script ends with it, the program takes its place. -/
def runExternal (host : Host) (last : Bool) (words : List (List Char)) : Action := fun before =>
  let state := { before with steps := before.steps + 1 }
  match state.tree.start (words.head?.getD []) words.tail with
  | .ok invocation => waitFor (host.program invocation) state
  | .error .unknownForm => waitFor (host.program ⟨"sh", words⟩) state
  | .error fault => goOnWith (faultStatus fault) state
where
  /-- Goes on with the status of a program, which is above 128 if a signal has ended it. -/
  waitFor (action : Action) : Action := fun before =>
    let (flow, inner) := action before
    let after := { before.after inner with
      released := if last then inner.released else before.released }
    match flow with
    | .killed signal => (.running, after.withStatus (128 + signal))
    | .stuck => (.stuck, after)
    | _ => (.running, after)

/-- Runs a program in the place of the script. -/
def replaceScript (host : Host) (words : List (List Char)) : Action := fun state =>
  match state.tree.start (words.head?.getD []) words.tail with
  | .ok invocation =>
    match host.program invocation state with
    | (.killed signal, state) => (.killed signal, state)
    | (.stuck, state) => (.stuck, state)
    | (_, state) => (.exited, state)
  | .error fault => exitWith (faultStatus fault) state

/-- Runs a function with arguments and variables of its own. -/
def runFunction (host : Host) (body : Command) (looked : Bool) (arguments : List (List Char)) :
    Action := fun before =>
  let (flow, inner) := host.command body looked false { before with arguments, locals := [] }
  (if flow = .returning then .running else flow,
    { before.restoreValues inner.locals inner with
      arguments := before.arguments, locals := before.locals })

/-- The word in front of a command that is not to be a function. -/
def commandWord : List Char := "command".toList

/-- Whether a command is a program. -/
def isProgram (host : Host) (state : State) (words : List (List Char)) : Bool :=
  match words with
  | [] => false
  | name :: _ =>
    name ≠ commandWord && ! state.functions.any (·.1 = name) &&
      (builtin? host (textOf name) []).isNone

/-- Runs a command that is given by the words it consists of. -/
def runWords (host : Host) (looked last : Bool) (words : List (List Char)) : Action := fun state =>
  match words with
  | [] => (.running, state)
  | name :: arguments =>
    if name = commandWord then
      match arguments with
      | [] => goOnWith 0 state
      | ['-', 'v'] :: names => describeCommand false names state
      | name :: arguments =>
        match builtin? host (textOf name) arguments with
        | some action => action state
        | none => runExternal host last (name :: arguments) state
    else
      match state.functions.find? (·.1 = name), builtin? host (textOf name) arguments with
      | some (_, body), _ => runFunction host body looked arguments state
      | none, some action => action state
      | none, none => runExternal host last (name :: arguments) state

/-- The state after assignments, and whether all of them can be made. -/
def assignAll (host : Host) : List (List Char × Word) → State → Bool × State
  | [], state => (true, state)
  | (name, word) :: rest, state =>
    match expandOne host word state with
    | (some value, state) =>
      if state.fixed.contains name then (false, state)
      else assignAll host rest (state.assign name value)
    | (none, state) => (false, state)

/-- Whether a word has a script in it. -/
def hasScript (word : Word) : Bool :=
  word.any fun part =>
    match part with
    | .output _ _ => true
    | _ => false

/-- Runs assignments that no command follows; the status is that of the last script in them. -/
def runAssignments (host : Host) (assignments : List (List Char × Word)) : Action := fun state =>
  match assignAll host assignments state with
  | (true, state) =>
    if assignments.any (hasScript ·.2) then (.running, state) else goOnWith 0 state
  | (false, state) => exitWith 2 state

/-- How many commands a script runs before it counts as endless. -/
def workLimit : Nat := 100000

/-- An action that counts as one more command. -/
def counted (action : Action) : Action := fun state =>
  if workLimit < state.work then (.stuck, state) else action { state with work := state.work + 1 }

/-- Redirects streams for the rest of the script, or runs a program in its place. -/
def runExec (host : Host) (words : List (List Char)) (redirects : List Redirect) : Action :=
  fun before =>
    match redirectAll? host redirects before with
    | none => exitWith 2 before
    | some state =>
      let state := if redirects.any (·.stream = 0) ∧ state.inputReleased.isNone then
          { state with inputReleased := some state.elapsed }
        else state
      if words.isEmpty then goOnWith 0 (if state.isKept then state else state.release)
      else replaceScript host words state.release

/-- Runs a simple command; the script may end with it. -/
def runSimple (host : Host) (looked last : Bool) (assignments : List (List Char × Word))
    (words : List Word) (redirects : List Redirect) : Action := fun state =>
  match expandWords host words state with
  | (none, state) => exitWith 2 state
  | (some [], state) =>
    let (flow, after) :=
      withStreams host false redirects (runAssignments host assignments) state
    if assignments.isEmpty ∧ words.any hasScript ∧ after.status = 0 then
      (flow, after.withStatus state.status)
    else (flow, after)
  | (some (name :: arguments), state) =>
    if name = "exec".toList then runExec host arguments redirects state
    else
      match assignAll host assignments state with
      | (false, state) => exitWith 2 state
      | (true, assigned) =>
        let names := assignments.map (·.1)
        let runsProgram := isProgram host state (name :: arguments)
        let assigned := if runsProgram then
            { assigned with exported := names ++ assigned.exported }
          else assigned
        let (flow, after) :=
          withStreams host (last && runsProgram) redirects
            (runWords host looked last (name :: arguments)) assigned
        (flow, { state.restoreValues names after with
          exported := if runsProgram then state.exported else after.exported })

/-- How often a loop is repeated before it counts as endless. -/
def loopLimit : Nat := 50000

/-- What becomes of a loop after a round of it: it goes on, or it ends. -/
def afterRound : Flow → Option Flow
  | .running => none
  | .repeating loops => if loops ≤ 1 then none else some (.repeating (loops - 1))
  | .leaving loops => some (if loops ≤ 1 then .running else .leaving (loops - 1))
  | flow => some flow

/-- An action inside of one more loop. -/
def inLoop (action : Action) : Action := fun before =>
  match action { before with loops := before.loops + 1 } with
  | (flow, state) => (flow, { state with loops := before.loops })

/-- Repeats a body as long as a condition succeeds, or until it does, but at most as often as the
first argument says; the status is that of the last round. -/
def repeatWhile (untilSuccess : Bool) (condition body : Action) : Nat → Nat → Action
  | 0, _, state => (.stuck, state)
  | rounds + 1, status, state =>
    match condition state with
    | (.running, state) =>
      if (state.status = 0) = untilSuccess then goOnWith status state
      else
        match body state with
        | (flow, state) =>
          match afterRound flow with
          | none => repeatWhile untilSuccess condition body rounds state.status state
          | some flow => (flow, state)
    | (flow, state) => ((afterRound flow).getD .running, state)

/-- Repeats a body for each of several values of a variable. -/
def repeatFor (name : List Char) (body : Action) : List (List Char) → Action
  | [], state => (.running, state)
  | value :: rest, state =>
    match body (state.assign name value) with
    | (flow, state) =>
      match afterRound flow with
      | none => repeatFor name body rest state
      | some flow => (flow, state)

/-- Runs two actions at once, the output of the first being the input of the second. If no script
waits for them, only they can write to whoever started it. -/
def runPipe (waits : Bool) (first second : Action) : Action := fun state =>
  let (output, flow, left) := collect first { state with released := none }
  let (other, right) :=
    second { state with
      input := output, aside := some left.unread, tree := left.tree, work := left.work,
      released := none }
  let status := if state.pipesFail ∧ right.status = 0 then left.status else right.status
  let ended := max left.elapsed right.elapsed
  let flow := match flow, other with
    | .killed signal, _ | _, .killed signal => .killed signal
    | .stuck, _ | _, .stuck => .stuck
    | _, _ => .running
  (flow, { state.after right with
    input := left.input, status, elapsed := ended, pending := right.pending,
    released := if waits then state.released else some (right.released.getD ended) })

/-- The time at which something ends that does not end. -/
def never : Nat := tenPow 18

/-- Runs an action that nobody waits for, with the given redirections from its start on. -/
def runAside (host : Host) (redirects : List Redirect) (action : Action) : Action := fun state =>
  let start := (redirectAll? host redirects state).getD state
  let (flow, inner) :=
    action { state with
      input := [], isAside := true, released := none, jobsEnd := 0, jobsSteps := 0 }
  let ended := if flow = .stuck then never else inner.elapsed
  let closing := if start.reports || state.isKept then inner.released.getD ended else 0
  (.running, { state.after inner with
    input := state.input, elapsed := state.elapsed, steps := state.steps, status := 0,
    jobStatus := match flow with
      | .killed signal => 128 + signal
      | _ => inner.status,
    jobsEnd := max state.jobsEnd ended, jobsSteps := max state.jobsSteps inner.steps,
    pending := max inner.pending closing })

/-- Whether a text matches one of several patterns, and the state after looking. -/
def matchesAny (host : Host) (text : List Char) : List Word → State → Bool × State
  | [], state => (false, state)
  | pattern :: rest, state =>
    match expandWord host false pattern state with
    | (some atoms, state) =>
      if isMatch (globs (atomChars atoms)) text then (true, state)
      else matchesAny host text rest state
    | (none, state) => (false, state)

/-- Runs a command in a process of its own; if the script ends with it, the process is that of the
script. -/
def runApart (last : Bool) (action : Action) : Action := fun before =>
  let (flow, inner) := action { before with steps := before.steps + 1 }
  let after := { before.after inner with
    released := if last then inner.released else before.released }
  match flow with
  | .killed signal => (.killed signal, after)
  | .stuck => (.stuck, after)
  | _ => (.running, after)

/-- Runs a command; `looked` says whether something depends on its success, so that a failure does
not end the script, and `last` whether the script ends with it. -/
def runCommand (host : Host) : Command → (looked last : Bool) → Action
  | .skip, _, _, state => (.running, state)
  | .simple assignments words redirects, looked, last, state =>
    checked looked (counted (runSimple host looked last assignments words redirects)) state
  | .sequence first second, looked, last, state =>
    andThen (runCommand host first looked (last && second matches .skip))
      (runCommand host second looked last) state
  | .background (.pipe first second), _, _, state =>
    runAside host [] (runPipe false (runCommand host first true true)
      (runCommand host second true true)) state
  | .background (.redirected body redirects), _, _, state =>
    runAside host redirects
      (withStreams host false redirects (runCommand host body true true)) state
  | .background body, _, _, state => runAside host [] (runCommand host body true true) state
  | .pipe first second, looked, _, state =>
    checked looked (runPipe true (runCommand host first looked true)
      (runCommand host second looked true)) state
  | .both first second, looked, last, state =>
    match runCommand host first true false state with
    | (.running, state) =>
      if state.status = 0 then runCommand host second looked last state else (.running, state)
    | ended => ended
  | .either first second, looked, last, state =>
    match runCommand host first true false state with
    | (.running, state) =>
      if state.status = 0 then (.running, state) else runCommand host second looked last state
    | ended => ended
  | .negated body, _, _, state =>
    match runCommand host body true false state with
    | (.running, state) => goOnWith (if state.status = 0 then 1 else 0) state
    | ended => ended
  | .branch condition yes no, looked, last, state =>
    match runCommand host condition true false state with
    | (.running, state) =>
      if state.status = 0 then runCommand host yes looked last state
      else
        match no with
        | .skip => goOnWith 0 state
        | no => runCommand host no looked last state
    | ended => ended
  | .loop untilSuccess condition body, looked, _, state =>
    repeatWhile untilSuccess (inLoop (runCommand host condition true false))
      (inLoop (runCommand host body looked false)) loopLimit 0 state
  | .forEach name words body, looked, _, state =>
    let (values, state) := match words with
      | some words => expandWords host words state
      | none => (some state.arguments, state)
    match values with
    | none => exitWith 2 state
    | some values =>
      repeatFor name (inLoop (runCommand host body looked false)) values (state.withStatus 0)
  | .arm word patterns body rest, looked, last, state =>
    match expandOne host word state with
    | (none, state) => exitWith 2 state
    | (some text, state) =>
      match matchesAny host text patterns (state.withStatus 0) with
      | (true, state) => runCommand host body looked last state
      | (false, state) => runCommand host rest looked last state
  | .redirected body redirects, looked, _, state =>
    withStreams host false redirects (runCommand host body looked false) state
  | .subshell body, looked, last, state =>
    checked looked (runApart last fun state =>
      atEnd host (runCommand host body looked true { state with traps := [] })) state
  | .define name body, _, _, state =>
    (.running, { state with
      functions := (name, body) :: state.functions.filter (·.1 ≠ name), status := 0 })

/-- Runs commands one after the other; the script may end with them. -/
def runCommands (host : Host) (last : Bool) : List Command → Action
  | [], state => (.running, state)
  | command :: rest, state =>
    andThen (runCommand host command false (last && rest.isEmpty)) (runCommands host last rest)
      state

/-- Runs a script as a part of the running one. It ends with status two where it cannot be read. -/
def runScript (host : Host) (last : Bool) (script : List Char) : Action :=
  let (commands, broken) := commandsOf script
  andThen (runCommands host (last && ! broken) commands)
    (if broken then exitWith 2 else fun state => (.running, state))

end ScriptFlow.Shell
