import ScriptFlow.Shell.Arithmetic
import ScriptFlow.Shell.Pattern
import ScriptFlow.Shell.Script
import ScriptFlow.Shell.State

/-!
What the words of a command stand for when it runs. Values that are not quoted are split at blanks
into several words; an expression that has no value, or a variable that should have one, ends the
script.
-/

namespace ScriptFlow.Shell

/-- An element of what a word stands for. -/
inductive Atom where
  /-- A character, and whether it stands for itself in a pattern. -/
  | char (c : Char) (quoted : Bool)
  /-- The end of a word, if there is one. -/
  | gap
  /-- The end of a word, even if it is empty. -/
  | cut
  /-- The presence of a word, even if no character follows. -/
  | present

/-- What a word stands for, if anything, and the state after it. -/
abbrev Expansion : Type := State → Option (List Atom) × State

/-- What a running script needs from one level below: to run a script, a command or a program inside
of a command, and to find out what a word inside of a word stands for. -/
structure Host where
  /-- Runs a script as a part of the running one, which ends with it or not. -/
  script : (last : Bool) → List Char → Action
  /-- Runs a command, whose failure is looked at or not, and with which the script ends or not. -/
  command : Command → (looked last : Bool) → Action
  /-- Runs an installed program. -/
  program : Invocation → Action
  /-- What a word stands for. -/
  word : Surroundings → List Char → Expansion

/-- Whether a character is blank. -/
def isSpace (c : Char) : Bool := c = ' ' || c = '\t' || c = '\n'

/-- The element for a character of a value that is split at separators. -/
def valueAtom (separators : List Char) (c : Char) : Atom :=
  if separators.contains c then if isSpace c then .gap else .cut else .char c false

/-- The elements of a value; without quotes it is split at separators. -/
def valueAtoms (quoted : Bool) (separators value : List Char) : List Atom :=
  if quoted then .present :: value.map (.char · true) else value.map (valueAtom separators)

/-- The elements of several values, which stay apart. -/
def listAtoms (quoted : Bool) (separators : List Char) (values : List (List Char)) : List Atom :=
  [.gap].intercalate (values.map (valueAtoms quoted separators))

/-- The characters of the elements. -/
def atomChars (atoms : List Atom) : List (Char × Bool) :=
  atoms.filterMap fun atom =>
    match atom with
    | .char c quoted => some (c, quoted)
    | .gap | .cut => some (' ', false)
    | .present => none

/-- The elements of an inner word as elements of the word around it. -/
def innerAtoms (quoted : Bool) (separators : List Char) (atoms : List Atom) : List Atom :=
  if quoted then
    .present :: (atomChars atoms).map fun (c, _) => .char c true
  else
    atoms.map fun atom =>
      match atom with
      | .char c false => valueAtom separators c
      | atom => atom

/-- The words that elements form; every character comes with whether it is quoted. -/
def fieldsFrom (word : Option (List (Char × Bool))) : List Atom → List (List (Char × Bool))
  | [] => word.toList
  | .char c quoted :: rest => fieldsFrom (some (word.getD [] ++ [(c, quoted)])) rest
  | .gap :: rest => word.toList ++ fieldsFrom none rest
  | .cut :: rest => word.getD [] :: fieldsFrom none rest
  | .present :: rest => fieldsFrom (some (word.getD [])) rest

/-- Whether a word is a pattern. -/
def isPattern (word : List (Char × Bool)) : Bool :=
  word.any fun (c, quoted) => ! quoted && (c = '*' || c = '?' || c = '[')

/-- The names of files that a pattern matches, or the word itself if there is none. Only the part
after the last slash can be a pattern. -/
def fileNames (tree : FileTree) (word : List (Char × Bool)) : List (List Char) :=
  let pattern := (word.reverse.takeWhile (·.1 ≠ '/')).reverse
  let directory := (word.take (word.length - pattern.length)).map (·.1)
  let isHidden (name : List Char) : Bool := name.head? = some '.'
  let names := ((tree.names (textOf directory)).map bytesOf).filter fun name =>
    isMatch (globs pattern) name && (! isHidden name || isHidden (pattern.map (·.1)))
  if ¬ isPattern pattern ∨ isPattern (word.take directory.length) ∨ names.isEmpty then
    [word.map (·.1)]
  else names.map (directory ++ ·)

/-- Output without the line ends at its end. -/
def withoutLineEnds (output : List Char) : List Char :=
  (output.reverse.dropWhile (· = '\n')).reverse

/-- What is done when a script ends by itself: what the script has set for its end, after which the
status is as before. -/
def atEnd (host : Host) : Flow × State → Flow × State
  | (.killed signal, state) => (.killed signal, state)
  | (.stuck, state) => (.stuck, state)
  | (_, state) =>
    match state.traps.find? (·.1 = 0) with
    | none => (.exited, state)
    | some (_, script) =>
      match host.script false script { state with traps := state.traps.filter (·.1 ≠ 0) } with
      | (.running, after) => (.exited, after.withStatus state.status)
      | ended => ended

/-- The output of a script that runs apart, if it can be read, and the state after it. -/
def outputOf (host : Host) (script : List Char) (state : State) : Option (List Char) × State :=
  if (commandsOf script).2 then (none, state)
  else
    let run (state : State) : Flow × State :=
      atEnd host (host.script true script { state with traps := [] })
    let (output, _, state) := collect run state
    (some (withoutLineEnds output), state)

/-- The number in a variable; without a value it is zero. -/
def variableNumber? (state : State) (name : List Char) : Option Int :=
  match state.value? name with
  | none => some 0
  | some value => if value.isEmpty then some 0 else integer? (trimBlanks value)

/-- What a parameter with a modifier stands for, given its value. -/
def modified (host : Host) (quoted : Bool) (separators name : List Char)
    (value : Option (List Char)) :
    Modifier → Expansion
  | .plain, state =>
    match value with
    | some value => (some (valueAtoms quoted separators value), state)
    | none =>
      if state.needsValues then (none, state) else (some (valueAtoms quoted separators []), state)
  | .length, state =>
    (some (valueAtoms quoted separators (natText (value.getD []).length).toList), state)
  | .fallback alsoEmpty word, state =>
    match value with
    | some value =>
      if alsoEmpty ∧ value.isEmpty then inner word state
      else (some (valueAtoms quoted separators value), state)
    | none => inner word state
  | .alternative alsoEmpty word, state =>
    match value with
    | some value =>
      if value.isEmpty ∧ ¬ alsoEmpty then (some (valueAtoms quoted separators []), state)
      else inner word state
    | none => (some (valueAtoms quoted separators []), state)
  | .assign word, state =>
    match value with
    | some found =>
      if found.isEmpty then assigned word state
      else (some (valueAtoms quoted separators found), state)
    | none => assigned word state
  | .needed, state =>
    match value with
    | some found =>
      if found.isEmpty then (none, state) else (some (valueAtoms quoted separators found), state)
    | none => (none, state)
  | .cutStart longest pattern, state =>
    match host.word .braces pattern state with
    | (some atoms, state) =>
      let value := cutStart longest (globs (atomChars atoms)) (value.getD [])
      (some (valueAtoms quoted separators value), state)
    | failed => failed
  | .cutEnd longest pattern, state =>
    match host.word .braces pattern state with
    | (some atoms, state) =>
      let value := cutEnd longest (globs (atomChars atoms)) (value.getD [])
      (some (valueAtoms quoted separators value), state)
    | failed => failed
where
  /-- What a word inside of the braces stands for, which becomes the value of the variable. -/
  assigned (word : List Char) : Expansion := fun state =>
    match inner word state with
    | (some atoms, state) =>
      (some atoms, state.assign name ((atomChars atoms).map (·.1)))
    | failed => failed
  /-- What a word inside of the braces stands for. -/
  inner (word : List Char) : Expansion := fun state =>
    match host.word (if quoted then .document else .braces) word state with
    | (some atoms, state) => (some (innerAtoms quoted separators atoms), state)
    | failed => failed

/-- The name and the operator of an assignment at the start of an expression, and the rest. -/
def assigned? (expression : List Char) : Option (List Char × List Char × List Char) :=
  let expression := trimBlanks expression
  let name := expression.takeWhile isNameChar
  let rest := trimBlanks (expression.drop name.length)
  let operator := rest.takeWhile "+-*/%&|^<>".toList.contains
  match rest.drop operator.length with
  | '=' :: c :: after =>
    if c = '=' ∨ ¬ isName name ∨ operator = ['<'] ∨ operator = ['>'] then none
    else some (name, operator, c :: after)
  | _ => none

/-- The value of an expression, which may give a value to a variable, and the state after it. -/
def valueOf? (expression : List Char) (state : State) : Option (Int × State) :=
  match assigned? expression with
  | none => (evaluate? (variableNumber? state) expression).map (·, state)
  | some (name, operator, rest) => do
    let right ← evaluate? (variableNumber? state) rest
    let value ← if operator.isEmpty then some right
      else do operate? operator (← variableNumber? state name) right
    return (value, state.assign name (intText value).toList)

/-- What a part of a word stands for; values are split if the word may become several. -/
def expandPart (host : Host) (splits : Bool) (part : Part) : Expansion := fun state =>
  let separators := if splits then state.separators else []
  let joined := (state.separators.take 1).intercalate state.arguments
  match part with
  | .text chars quoted =>
    (some ((if quoted then [.present] else []) ++ chars.map (.char · quoted)), state)
  | .parameter ['@'] .plain quoted =>
    if splits then (some (listAtoms quoted separators state.arguments), state)
    else (some (valueAtoms quoted [] ([' '].intercalate state.arguments)), state)
  | .parameter ['*'] .plain quoted =>
    if splits ∧ ¬ quoted then (some (listAtoms quoted separators state.arguments), state)
    else (some (valueAtoms quoted [] joined), state)
  | .parameter ['$'] _ quoted => (some (valueAtoms quoted separators "$$".toList), state)
  | .parameter name modifier quoted =>
    let value := if name = ['@'] ∨ name = ['*'] then
        if state.arguments.isEmpty then none else some joined
      else state.parameter? name
    modified host quoted separators name value modifier state
  | .output script quoted =>
    let (output, state) := outputOf host script state
    (output.map (valueAtoms quoted separators), state)
  | .value expression quoted =>
    match host.word .document expression state with
    | (some atoms, state) =>
      match valueOf? ((atomChars atoms).map (·.1)) state with
      | some (n, state) => (some (valueAtoms quoted separators (intText n).toList), state)
      | none => (none, state)
    | failed => failed

/-- What a word stands for. -/
def expandWord (host : Host) (splits : Bool) : Word → Expansion
  | [], state => (some [], state)
  | part :: rest, state =>
    match expandPart host splits part state with
    | (some atoms, state) =>
      match expandWord host splits rest state with
      | (some more, state) => (some (atoms ++ more), state)
      | failed => failed
    | failed => failed

/-- What a word inside of a word stands for, as it is written. -/
def expandText (host : Host) (around : Surroundings) (text : List Char) : Expansion := fun state =>
  match wordOf? around text with
  | some word => expandWord host false word state
  | none => (none, state)

/-- The words that several words stand for. -/
def expandWords (host : Host) : List Word → State → Option (List (List Char)) × State
  | [], state => (some [], state)
  | word :: rest, state =>
    match expandWord host true word state with
    | (some atoms, state) =>
      match expandWords host rest state with
      | (some more, after) =>
        let names := fun (word : List (Char × Bool)) =>
          if state.keepsPatterns then [word.map (·.1)] else fileNames state.tree word
        (some ((fieldsFrom none atoms).flatMap names ++ more), after)
      | failed => failed
    | (none, state) => (none, state)

/-- The one text that a word stands for. -/
def expandOne (host : Host) (word : Word) (state : State) : Option (List Char) × State :=
  match expandWord host false word state with
  | (some atoms, state) => (some ((atomChars atoms).map (·.1)), state)
  | (none, state) => (none, state)

end ScriptFlow.Shell
