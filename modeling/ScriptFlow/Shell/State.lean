import ScriptFlow.Number.Numeral
import ScriptFlow.Shell.Bytes
import ScriptFlow.Shell.Command
import ScriptFlow.System.Interpreter

/-!
What a running script knows and has done: its variables and settings, the input it has not read,
what it has written and where its output goes, and how much time has passed. Time passes only by
waiting.
-/

namespace ScriptFlow.Shell

/-- Where output goes. -/
inductive Sink where
  /-- To whoever started the script. -/
  | report
  /-- Nowhere. -/
  | nowhere
  /-- To the end of a file. -/
  | file (path : List Char)
  deriving DecidableEq

/-- Something written at a time. -/
structure Chunk where
  /-- The milliseconds that had passed. -/
  time : Nat
  /-- How many programs had been run since then, which takes some time too. -/
  step : Nat
  /-- Whether it was written by a command that nobody waits for, which takes time to start. -/
  isLate : Bool
  /-- The bytes. -/
  chars : List Char

/-- Whether a chunk was not written after another one. -/
def Chunk.isBefore (first second : Chunk) : Bool :=
  first.time < second.time ||
    (first.time = second.time &&
      (first.step < second.step ||
        (first.step = second.step && (! first.isLate || second.isLate))))

/-- All that was written, given the last chunk first. -/
def Chunk.all (chunks : List Chunk) : List Char :=
  (chunks.reverse.mergeSort Chunk.isBefore).flatMap Chunk.chars

/-- A running script. -/
structure State where
  /-- The files. -/
  tree : FileTree := {}
  /-- The input that has not been read. -/
  input : List Char := []
  /-- What has been written to whoever started the script, the last chunk first. -/
  report : List Chunk := []
  /-- How many bytes that were. -/
  written : Nat := 0
  /-- Where the output goes. -/
  output : Sink := .report
  /-- Where messages go. -/
  messages : Sink := .nowhere
  /-- Where further streams go. -/
  others : List (Nat × Sink) := []
  /-- Whether a stream to whoever started the script is kept for the time after a redirection. -/
  isKept : Bool := false
  /-- The bytes of the first input that have not been read, while there is another input. -/
  aside : Option Nat := none
  /-- Whether what is written is collected by the script that runs this one. -/
  isCollected : Bool := false
  /-- The milliseconds that have passed. -/
  elapsed : Nat := 0
  /-- When the last of its streams to whoever started it was given up, if that has happened. -/
  released : Option Nat := none
  /-- When the first input was given up, if that has happened. -/
  inputReleased : Option Nat := none
  /-- Until when commands that nobody waits for can write to whoever started the script. -/
  pending : Nat := 0
  /-- When the last of the commands that nobody waits for ends. -/
  jobsEnd : Nat := 0
  /-- The status of the last of the commands that nobody waits for. -/
  jobStatus : Nat := 0
  /-- How many commands have been run. -/
  work : Nat := 0
  /-- How many programs have been run. -/
  steps : Nat := 0
  /-- How many programs the commands have run that nobody waits for. -/
  jobsSteps : Nat := 0
  /-- Whether nobody waits for the script. -/
  isAside : Bool := false
  /-- The name of the script. -/
  name : List Char := []
  /-- The arguments. -/
  arguments : List (List Char) := []
  /-- The variables. -/
  values : List (List Char × List Char) := []
  /-- The names of the variables that programs see. -/
  exported : List (List Char) := []
  /-- The names of the variables that keep their values. -/
  fixed : List (List Char) := []
  /-- The names of the variables that are as before after the function. -/
  locals : List (List Char) := []
  /-- The functions. -/
  functions : List (List Char × Command) := []
  /-- What is done when a signal comes; zero stands for the end of the script. -/
  traps : List (Nat × List Char) := []
  /-- How many loops the command stands in. -/
  loops : Nat := 0
  /-- The status of the last command. -/
  status : Nat := 0
  /-- Whether the script ends with a command that fails. -/
  endsOnFailure : Bool := false
  /-- Whether only variables that have a value may be used. -/
  needsValues : Bool := false
  /-- Whether patterns are not replaced by the names of files. -/
  keepsPatterns : Bool := false
  /-- Whether a pipe fails if any of its commands does. -/
  pipesFail : Bool := false
  /-- Whether backslashes in written texts are left alone unless an option says otherwise. -/
  keepsEscapes : Bool := false

/-- How a script goes on. -/
inductive Flow where
  /-- With the next command. -/
  | running
  /-- Not at all: it has ended. -/
  | exited
  /-- Not at all: a signal has ended it. -/
  | killed (signal : Nat)
  /-- Not at all: it goes on forever. -/
  | stuck
  /-- After the given number of loops. -/
  | leaving (loops : Nat)
  /-- With the next round of the loop outside of the given number of others. -/
  | repeating (loops : Nat)
  /-- After the function. -/
  | returning
  deriving DecidableEq

/-- What a command does. -/
abbrev Action : Type := State → Flow × State

namespace State

/-- The state with another status. -/
def withStatus (state : State) (status : Nat) : State := { state with status }

/-- The state after output to a sink; nothing comes of output to a file that cannot be written. -/
def put (state : State) (sink : Sink) (chars : List Char) : State :=
  match sink with
  | .report =>
    { state with
      report := ⟨state.elapsed, state.steps, state.isAside, chars⟩ :: state.report,
      written := state.written + chars.length }
  | .nowhere => state
  | .file path =>
    let text := match state.tree.read (textOf path) with
      | .ok text => bytesOf text
      | .error _ => []
    match state.tree.write (textOf path) (textOf (text ++ chars)) with
    | .ok tree => { state with tree }
    | .error _ => state

/-- The state after output. -/
def write (state : State) (chars : List Char) : State := state.put state.output chars

/-- The value of a variable. -/
def value? (state : State) (name : List Char) : Option (List Char) :=
  (state.values.find? (·.1 = name)).map (·.2)

/-- The state with another value of a variable. -/
def assign (state : State) (name value : List Char) : State :=
  { state with values := (name, value) :: state.values.filter (·.1 ≠ name) }

/-- Whether a stream leads to whoever started the script. -/
def reports (state : State) : Bool :=
  state.output = .report || state.messages = .report || state.others.any (·.2 = .report)

/-- The state after the last stream to whoever started the script was given up, if it was. -/
def release (state : State) : State :=
  if state.reports ∨ state.released.isSome then state
  else { state with released := some state.elapsed }

/-- The bytes of the first input that have not been read. -/
def unread (state : State) : Nat := state.aside.getD state.input.length

/-- The characters at which values are split. -/
def separators (state : State) : List Char :=
  (state.value? ['I', 'F', 'S']).getD [' ', '\t', '\n']

/-- The value of a parameter that has a single one. -/
def parameter? (state : State) (name : List Char) : Option (List Char) :=
  match name with
  | ['?'] => some (natText state.status).toList
  | ['#'] => some (natText state.arguments.length).toList
  | ['0'] => some state.name
  | ['-'] => some ((if state.endsOnFailure then ['e'] else []) ++
      (if state.needsValues then ['u'] else []))
  | ['!'] => some ['$', '!']
  | name =>
    match name with
    | [] => none
    | c :: rest =>
      if c.isDigit then
        let place := (c :: rest).foldl (fun n d => n * 10 + (d.toNat - '0'.toNat)) 0
        state.arguments[place - 1]?
      else state.value? name

/-- The state with the variables of the given names as before. -/
def restoreValues (before : State) (names : List (List Char)) (after : State) : State :=
  { after with
    values := before.values.filter (names.contains ·.1) ++
      after.values.filter (! names.contains ·.1) }

end State

/-- The state of the starting script after another one has run for it: what it has done stays, what
it has set does not. -/
def State.after (before inner : State) : State :=
  { before with
    tree := inner.tree, input := inner.input, report := inner.report, written := inner.written,
    elapsed := inner.elapsed, work := inner.work, steps := inner.steps, pending := inner.pending,
    status := inner.status }

/-- The state of a script whose output is collected. -/
def State.collected (state : State) : State :=
  { state with
    report := [], written := 0, output := .report, isCollected := true, isKept := false,
    released := none, pending := 0 }

/-- What an action writes, and the state after it, when nobody can write any more. -/
def collect (action : Action) (state : State) : List Char × Flow × State :=
  let (flow, inner) := action state.collected
  (Chunk.all inner.report, flow,
    { state.after inner with
      report := state.report, written := state.written, pending := state.pending,
      elapsed := max inner.elapsed (max inner.pending state.elapsed) })

/-- One action after another. -/
def andThen (first second : Action) : Action := fun state =>
  match first state with
  | (.running, state) => second state
  | ended => ended

end ScriptFlow.Shell
