import ScriptFlow.Shell.Expansion
import ScriptFlow.Shell.Utility

/-!
The commands that a shell carries out itself.
-/

namespace ScriptFlow.Shell

/-- How many bytes can be written to a reader that does not read yet. -/
def waitingBytes : Nat := 65536

/-- Whether a program waits forever. Whoever started the script reads what it writes only after all
of the input has been taken; both sides wait if neither the input nor the output fits into what can
be written ahead. -/
def Effect.blocks (effect : Effect) (state : State) : Bool :=
  let written := state.written + effect.output.length
  let taken := if state.aside.isSome then 0
    else
      match effect.block with
      | none => effect.reads.getD state.unread
      | some block => ((waitingBytes - state.written) / block + 1) * block
  state.output = .report && ! state.isCollected && waitingBytes < written &&
    waitingBytes < state.unread - taken

/-- The action of an effect. -/
def Effect.action (effect : Effect) : Action := fun state =>
  let after := state.write effect.output
  (if effect.blocks state then .stuck else .running, { after with
    input := match effect.reads with
      | some count => after.input.drop count
      | none => [],
    elapsed := after.elapsed + effect.waits, status := effect.status })

/-- Ends the script with a status. -/
def exitWith (status : Nat) : Action := fun state => (.exited, state.withStatus status)

/-- Goes on with a status. -/
def goOnWith (status : Nat) : Action := fun state => (.running, state.withStatus status)

/-- A number without a sign. -/
def natural? (word : List Char) : Option Nat := digitsValue? 10 word

/-- The status that a word gives: a number of at most 31 bits, without a sign unless signs are
allowed. -/
def statusOf? (signed : Bool) (word : List Char) : Option Nat :=
  let isBlankChar (c : Char) : Bool := c = ' ' || ('\t' ≤ c && c ≤ '\r')
  let word := ((word.dropWhile isBlankChar).reverse.dropWhile isBlankChar).reverse
  match word with
  | '-' :: digits =>
    (natural? digits).bind fun n =>
      if n = 0 then some 0 else if signed then some ((256 - n % 256) % 256) else none
  | '+' :: digits => (natural? digits).bind inRange
  | digits => (natural? digits).bind inRange
where
  /-- The status for a number. -/
  inRange (n : Nat) : Option Nat := if n < twoPow 31 then some (n % 256) else none

/-- Ends the script with the given status, or with that of the last command. -/
def exitCommand (words : List (List Char)) : Action := fun state =>
  match words with
  | [] => (.exited, state)
  | word :: _ => exitWith ((statusOf? state.keepsEscapes word).getD 2) state

/-- The numbers of signals by their names. -/
def signals : List (String × Nat) :=
  [("HUP", 1), ("INT", 2), ("QUIT", 3), ("ILL", 4), ("TRAP", 5), ("ABRT", 6), ("BUS", 7),
    ("FPE", 8), ("KILL", 9), ("USR1", 10), ("SEGV", 11), ("USR2", 12), ("PIPE", 13), ("ALRM", 14),
    ("TERM", 15), ("STKFLT", 16), ("CHLD", 17), ("CONT", 18), ("STOP", 19), ("TSTP", 20),
    ("TTIN", 21), ("TTOU", 22), ("URG", 23), ("XCPU", 24), ("XFSZ", 25), ("VTALRM", 26),
    ("PROF", 27), ("WINCH", 28), ("IO", 29), ("PWR", 30), ("SYS", 31)]

/-- The number of a signal, given by its number or its name. -/
def signal? (word : List Char) : Option Nat :=
  match natural? word with
  | some n => if n ≤ 64 then some n else none
  | none => (signals.find? (·.1 = String.ofList (word.map Char.toUpper))).map (·.2)

/-- What a signal does to a script: what the script has set, or else nothing, stop it for good or
end it. -/
def receive (host : Host) (signal : Nat) : Action := fun state =>
  if let some (_, script) := state.traps.find? fun (n, _) => n = signal ∧ n ≠ 9 ∧ n ≠ 19 then
    andThen (host.script false script) (goOnWith 0) state
  else if signal = 0 ∨ signal = 17 ∨ signal = 18 ∨ signal = 23 ∨ signal = 28 then
    goOnWith 0 state
  else if 19 ≤ signal ∧ signal ≤ 22 then (.stuck, state)
  else (.killed signal, state)

/-- Sends a signal; only the script itself can get it. -/
def killCommand (host : Host) (words : List (List Char)) : Action :=
  let send (signal : Option Nat) (targets : List (List Char)) : Action :=
    match signal with
    | some signal => if targets.contains ['$', '$'] then receive host signal else goOnWith 1
    | none => goOnWith 2
  match words with
  | ['-', 's'] :: name :: targets => send (signal? name) targets
  | ('-' :: name) :: targets => send (signal? name) targets
  | targets => send (some 15) targets

/-- The number of a signal, or of the end of a script, for which something is set. -/
def trapSignal? (word : List Char) : Option Nat :=
  if word = "EXIT".toList then some 0 else signal? word

/-- Sets what is done when signals come, or takes it back. -/
def trapCommand (words : List (List Char)) : Action := fun state =>
  let (script, names) := match words with
    | [] => (none, [])
    | ['-', '-'] :: script :: names => (some script, names)
    | ['-'] :: names => (none, names)
    | [name] => (none, [name])
    | script :: names => (some script, names)
  match names.mapM trapSignal? with
  | none => goOnWith 1 state
  | some found =>
    let kept := state.traps.filter (! found.contains ·.1)
    let added := match script with
      | some script => found.map (·, script)
      | none => []
    (.running, { state with traps := added ++ kept, status := 0 })

/-- The state with settings changed by letters, if there are such settings. -/
def setLetters (turnOn : Bool) : List Char → State → Option State
  | [], state => some state
  | c :: rest, state =>
    if c = 'e' then setLetters turnOn rest { state with endsOnFailure := turnOn }
    else if c = 'u' then setLetters turnOn rest { state with needsValues := turnOn }
    else if c = 'f' then setLetters turnOn rest { state with keepsPatterns := turnOn }
    else if "abChmnvVx".toList.contains c then setLetters turnOn rest state
    else none

/-- The state with a setting changed by its name. -/
def setNamed (turnOn : Bool) (name : List Char) (state : State) : Option State :=
  match String.ofList name with
  | "errexit" => some { state with endsOnFailure := turnOn }
  | "nounset" => some { state with needsValues := turnOn }
  | "noglob" => some { state with keepsPatterns := turnOn }
  | "xtrace" | "verbose" | "allexport" | "noclobber" | "monitor" => some state
  | "pipefail" => if state.keepsEscapes then some { state with pipesFail := turnOn } else none
  | _ => none

/-- The state with settings changed by a word of letters, of which `o` takes a name from the words
that follow, and what is left of those. -/
def setWord (turnOn : Bool) (letters : List Char) (rest : List (List Char)) (state : State) :
    Option (State × List (List Char)) := do
  let state ← setLetters turnOn (letters.filter (· ≠ 'o')) state
  if letters.contains 'o' then
    let state ← setNamed turnOn (rest.head?.getD []) state
    return (state, rest.tail)
  else return (state, rest)

/-- Changes settings and arguments; at most as many words are read as the first argument says. -/
def setFrom : Nat → List (List Char) → Action
  | 0, _, state => goOnWith 0 state
  | _, [], state => goOnWith 0 state
  | count + 1, word :: rest, state =>
    match word with
    | ['-', '-'] => (.running, { state with arguments := rest, status := 0 })
    | '-' :: c :: letters =>
      match setWord true (c :: letters) rest state with
      | some (state, rest) => setFrom count rest state
      | none => exitWith 2 state
    | '+' :: c :: letters =>
      match setWord false (c :: letters) rest state with
      | some (state, rest) => setFrom count rest state
      | none => exitWith 2 state
    | _ => (.running, { state with arguments := word :: rest, status := 0 })

/-- Changes settings and arguments. -/
def setCommand (words : List (List Char)) : Action := setFrom words.length words

/-- Leaves out arguments in front. -/
def shiftCommand (words : List (List Char)) : Action := fun state =>
  match (match words with
    | [] => some 1
    | word :: _ => natural? word) with
  | some count =>
    if count ≤ state.arguments.length then
      (.running, { state with arguments := state.arguments.drop count, status := 0 })
    else exitWith 2 state
  | none => exitWith 2 state

/-- A line of input with the characters that a backslash keeps marked, whether it has an end, and
the input after it. -/
def inputLine (raw : Bool) : List Char → List (Char × Bool) × Bool × List Char
  | [] => ([], false, [])
  | '\\' :: c :: rest =>
    if raw then
      if c = '\n' then ([('\\', false)], true, rest)
      else
        let (line, ended, rest) := inputLine raw rest
        (('\\', false) :: (c, false) :: line, ended, rest)
    else
      let (line, ended, rest) := inputLine raw rest
      (if c = '\n' then line else (c, true) :: line, ended, rest)
  | c :: rest =>
    if c = '\n' then ([], true, rest)
    else
      let (line, ended, rest) := inputLine raw rest
      ((c, false) :: line, ended, rest)

/-- Whether a character of a line separates fields, and whether it is blank. -/
def isFieldGap (separators : List Char) (c : Char × Bool) : Bool :=
  ! c.2 && separators.contains c.1

/-- Whether a character of a line is a blank that separates fields. -/
def isBlankGap (separators : List Char) (c : Char × Bool) : Bool :=
  isFieldGap separators c && isSpace c.1

/-- The state with the fields of a line in variables; the last one gets all that is left. -/
def assignFields (separators : List Char) (state : State) (line : List (Char × Bool)) :
    List (List Char) → State
  | [] => state
  | [name] =>
    let line := line.dropWhile (isBlankGap separators)
    state.assign name ((line.reverse.dropWhile (isBlankGap separators)).reverse.map (·.1))
  | name :: names =>
    let line := line.dropWhile (isBlankGap separators)
    let field := line.takeWhile (! isFieldGap separators ·)
    let rest := (line.drop field.length).dropWhile (isBlankGap separators)
    let rest := if rest.head?.any (isFieldGap separators) then rest.tail else rest
    assignFields separators (state.assign name (field.map (·.1))) rest names

/-- Reads a line of input into variables. -/
def readCommand (words : List (List Char)) : Action := fun state =>
  let raw := words.head? = some ['-', 'r']
  let names := if raw then words.tail else words
  if names.isEmpty then goOnWith 2 state
  else
    let (line, ended, rest) := inputLine raw state.input
    goOnWith (if ended then 0 else 1) 
      (assignFields state.separators { state with input := rest } line names)

/-- Gives values to variables, or leaves them as they are, and marks their names. -/
def declareCommand (mark : List Char → State → State) (words : List (List Char)) : Action :=
  fun state =>
    goOnWith 0 (words.foldl (fun state word =>
      let name := word.takeWhile (· ≠ '=')
      mark name (match word.dropWhile (· ≠ '=') with
        | _ :: value => state.assign name value
        | [] => state)) state)

/-- Takes values away from variables. -/
def unsetCommand (words : List (List Char)) : Action := fun state =>
  goOnWith 0 { state with
    values := state.values.filter (! words.contains ·.1),
    functions := state.functions.filter (! words.contains ·.1) }

/-- The number of loops that a word gives. -/
def loopCount (words : List (List Char)) : Nat := ((words.head?.bind natural?).getD 1)

/-- The status of a condition in brackets. -/
def bracketStatus (state : State) (words : List (List Char)) : Nat :=
  if words.getLast? = some [']'] then conditionStatus state.tree words.dropLast else 2

/-- Writes arguments in a format, which cannot start like an option. -/
def printCommand (words : List (List Char)) : Action :=
  match words with
  | ('-' :: c :: _) :: _ => if c = '-' then (printFormat words).action else goOnWith 2
  | words => (printFormat words).action

/-- The names of the commands that a shell carries out itself. -/
def builtinNames : List String :=
  [":", "true", "false", "exit", "return", "break", "continue", "set", "shift", "read", "kill",
    "export", "readonly", "local", "unset", "eval", ".", "exec", "wait", "cd", "test", "[", "echo",
    "printf", "trap", "umask", "ulimit", "command", "type"]

/-- What runs for a name: the name itself for a command of the shell or a function, and the path of
a program; and how that is said in words. -/
def commandFor? (state : State) (name : List Char) : Option (String × String) :=
  let text := textOf name
  if state.functions.any (·.1 = name) then some (text, text ++ " is a shell function")
  else if text ∈ builtinNames then
    some (text, text ++
      (if text ∈ [":", "exit", "return", "break", "continue", "set", "shift", "export", "readonly",
        "unset", "eval", ".", "exec", "trap"] then " is a special shell builtin"
      else " is a shell builtin"))
  else if text ∈ FileTree.installedPrograms then
    some ("/usr/bin/" ++ text, text ++ " is /usr/bin/" ++ text)
  else if name.contains '/' ∧ (state.tree.resolve text).toOption.isSome then
    some (text, text ++ " is " ++ text)
  else none

/-- Says what runs for a name. -/
def describeCommand (inWords : Bool) (words : List (List Char)) : Action := fun state =>
  match words with
  | [] => goOnWith 0 state
  | name :: _ =>
    match commandFor? state name with
    | some (short, long) =>
      goOnWith 0 (state.write (bytesOf (if inWords then long else short) ++ ['\n']))
    | none =>
      if inWords then goOnWith 127 (state.write (name ++ ": not found\n".toList))
      else goOnWith 127 state

/-- The action of a command that a shell carries out itself. -/
def builtin? (host : Host) (name : String) (words : List (List Char)) : Option Action :=
  match name with
  | ":" | "true" | "umask" | "ulimit" => some (goOnWith 0)
  | "trap" => some (trapCommand words)
  | "false" => some (goOnWith 1)
  | "exit" => some (exitCommand words)
  | "return" => some fun state =>
    (.returning, state.withStatus ((words.head?.bind natural?).getD state.status % 256))
  | "break" => some fun state =>
    (if state.loops = 0 then .running else .leaving (min (loopCount words) state.loops),
      state.withStatus 0)
  | "continue" => some fun state =>
    (if state.loops = 0 then .running else .repeating (min (loopCount words) state.loops),
      state.withStatus 0)
  | "set" => some (setCommand words)
  | "shift" => some (shiftCommand words)
  | "read" => some (readCommand words)
  | "kill" => some (killCommand host words)
  | "export" => some (declareCommand
      (fun name state => { state with exported := name :: state.exported }) words)
  | "readonly" => some (declareCommand
      (fun name state => { state with fixed := name :: state.fixed }) words)
  | "local" => some (declareCommand
      (fun name state => { state with locals := name :: state.locals }) words)
  | "unset" => some (unsetCommand words)
  | "eval" => some (host.script false (joined words))
  | "." => some fun state =>
    match words.head?.bind (contents? state.tree []) with
    | some script => host.script false script state
    | none => exitWith 2 state
  | "type" => some (describeCommand true words)
  | "wait" => some fun state =>
    goOnWith (if words.contains ['$', '!'] then state.jobStatus else 0) { state with
      elapsed := max state.elapsed state.jobsEnd, steps := max state.steps state.jobsSteps + 1 }
  | "cd" => some fun state =>
    goOnWith (if conditionStatus state.tree (['-', 'd'] :: words.take 1) = 0 then 0 else 2) state
  | "test" => some fun state => goOnWith (conditionStatus state.tree words) state
  | "[" => some fun state => goOnWith (bracketStatus state words) state
  | "echo" => some fun state =>
    (if state.keepsEscapes then echoPlain words else echoEscaped words).action state
  | "printf" => some (printCommand words)
  | _ => none

end ScriptFlow.Shell
