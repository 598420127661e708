import ScriptFlow.Shell.Run

/-!
Running installed programs: shells, the program that looks for other programs, and those that only
turn input into output. A program that runs others does so one level below, and a program below the
last level counts as endless.
-/

namespace ScriptFlow.Shell

/-- What a shell is asked to run. -/
inductive Source where
  /-- The input. -/
  | input
  /-- The first of the words. -/
  | text
  /-- The file that the first of the words names. -/
  | file
  /-- Nothing. -/
  | nothing
  deriving DecidableEq

/-- The settings that the options of a shell make, what it is to run, and the words after the
options; at most as many words are read as the first argument says. -/
def shellOptions : Nat → Source → List (List Char) → State →
    Option (Source × State × List (List Char))
  | 0, source, words, state => some (source, state, words)
  | _, source, [], state => some (source, state, [])
  | count + 1, source, word :: rest, state =>
    match word with
    | ['-'] | ['-', '-'] => some (source, state, rest)
    | '-' :: letters =>
      let source := if letters.contains 'n' ∨ source = .nothing then .nothing
        else if letters.contains 'c' then .text
        else if letters.contains 's' then .input
        else source
      let letters := letters.filter fun c => c ≠ 'c' ∧ c ≠ 's' ∧ c ≠ 'i' ∧ c ≠ 'l'
      (setWord true letters rest state).bind fun (state, rest) =>
        shellOptions count source rest state
    | '+' :: letters =>
      (setWord false letters rest state).bind fun (state, rest) =>
        shellOptions count source rest state
    | _ => some (source, state, word :: rest)

/-- The end of a program as those see it that started it. -/
def ended : Flow × State → Flow × State
  | (.killed signal, state) => (.killed signal, state)
  | (.stuck, state) => (.stuck, state)
  | (_, state) => (.exited, state)

/-- Runs a shell. -/
def runShell (host : Host) (isPlain : Bool) (words : List (List Char)) : Action := fun outer =>
  let fresh : State :=
    { tree := outer.tree, input := outer.input, report := outer.report,
      written := outer.written, work := outer.work, steps := outer.steps, isAside := outer.isAside,
      output := outer.output,
      messages := outer.messages, others := outer.others, aside := outer.aside,
      isCollected := outer.isCollected, elapsed := outer.elapsed, released := outer.released,
      inputReleased := outer.inputReleased,
      pending := outer.pending, exported := outer.exported,
      values := outer.values.filter (outer.exported.contains ·.1), name := "sh".toList,
      keepsEscapes := ! isPlain }
  match shellOptions words.length .file words fresh with
  | none => exitWith 2 outer
  | some (.nothing, _, _) => exitWith 0 outer
  | some (.input, state, arguments) =>
    atEnd host (host.script false state.input { state with input := [], arguments })
  | some (.text, state, words) =>
    match words with
    | [] => exitWith 2 outer
    | script :: rest =>
      atEnd host (host.script true script
        { state with name := rest.head?.getD state.name, arguments := rest.tail })
  | some (.file, state, words) =>
    match words with
    | [] => atEnd host (host.script false state.input { state with input := [] })
    | path :: arguments =>
      match state.tree.read (textOf path) with
      | .ok script =>
        atEnd host (host.script false (bytesOf script) { state with name := path, arguments })
      | .error .isDirectory => exitWith (if isPlain then 0 else 126) outer
      | .error _ => exitWith (if isPlain then 2 else 127) outer

/-- The words of a text, split at blanks. -/
def splitWords (text : List Char) : List (List Char) :=
  (fieldsFrom none (valueAtoms false [' ', '\t', '\n'] text)).map fun word => word.map (·.1)

/-- Whether a word gives a value to a variable. -/
def isAssignment (word : List Char) : Bool := word.contains '=' && word.head? ≠ some '='

/-- Runs the program that words name. A single word may hold all of them. -/
def runNamed (host : Host) (words : List (List Char)) : Action := fun state =>
  let words := match words with
    | ('-' :: 'S' :: text) :: rest => splitWords text ++ rest
    | ['-', '-'] :: rest => rest
    | ['-', 'i'] :: rest | ['-'] :: rest => rest
    | words => words
  let state := (words.takeWhile isAssignment).foldl (fun state word =>
    let name := word.takeWhile (· ≠ '=')
    { state.assign name (word.drop (name.length + 1)) with exported := name :: state.exported })
    state
  match words.dropWhile isAssignment with
  | [] => exitWith 0 state
  | name :: arguments =>
    if name.head? = some '-' then exitWith 125 state
    else
      match state.tree.start name arguments with
      | .ok invocation => host.program invocation state
      | .error .missing | .error .notDirectory => exitWith 127 state
      | .error _ => exitWith 126 state

/-- Runs an installed program. -/
def runProgram (host : Host) (invocation : Invocation) : Action := fun state =>
  match invocation.program with
  | "sh" | "dash" => runShell host true invocation.arguments state
  | "bash" => runShell host false invocation.arguments state
  | "env" => runNamed host invocation.arguments state
  | name =>
    match utility? state.tree state.input name invocation.arguments with
    | some effect => ended (effect.action state)
    | none => exitWith 127 state

/-- What the commands of a script can rely on, with the given number of levels below. -/
def Host.level : Nat → Host
  | 0 =>
    { script := fun _ _ state => (.stuck, state), command := fun _ _ _ state => (.stuck, state),
      program := fun _ state => (.stuck, state), word := fun _ _ state => (none, state) }
  | levels + 1 =>
    { script := runScript (Host.level levels), command := runCommand (Host.level levels),
      program := runProgram (Host.level levels), word := expandText (Host.level levels) }

end ScriptFlow.Shell

namespace ScriptFlow

/-- How many levels of programs and scripts can run inside each other. -/
def nestingLevels : Nat := 64

/-- How many bytes a page has. -/
def pageSize : Nat := 4096

/-- The milliseconds that it takes at least to start a program. -/
def startingTime : Nat := 1

/-- The course of a program's run. -/
structure Course where
  /-- The bytes written. -/
  output : List Char := []
  /-- How many bytes of the input were left in pages that were not read to their end. -/
  unread : Nat := 0
  /-- When nobody could write any more, in milliseconds. -/
  closing : Nat := 0
  /-- When nobody could read any more, in milliseconds. -/
  inputClosing : Nat := 0
  /-- How it ended. -/
  ending : Ending := .exited 0

/-- The course of an installed program among files, with an input. A program that does not end is
ended by a signal after everyone has stopped waiting. -/
def Invocation.course (invocation : Invocation) (tree : FileTree) (input : String) : Course :=
  let bytes := bytesOf input
  let (flow, state) :=
    (Shell.Host.level nestingLevels).program invocation { tree, input := bytes }
  let ended := if flow = .stuck then Shell.never else state.elapsed
  { output := Shell.Chunk.all state.report,
    unread := bytes.length - (bytes.length - state.unread) / pageSize * pageSize,
    closing := max (state.released.getD ended) state.pending,
    inputClosing := state.inputReleased.getD ended,
    ending := match flow with
      | .killed _ | .stuck => .killed
      | _ => .exited state.status }

/-- What others see of a run that takes a course. First all of the input is written, which fails if
it is not read; then what was written is read until nobody can write any more. -/
def Course.run (course : Course) : Run where
  exchange milliseconds :=
    if Shell.waitingBytes < course.unread ∧ course.inputClosing + startingTime < milliseconds then
      .broken
    else if milliseconds ≤ course.closing + startingTime ∨ Shell.waitingBytes < course.unread then
      .pending
    else .finished (packed course.output)
  ending := course.ending

end ScriptFlow
