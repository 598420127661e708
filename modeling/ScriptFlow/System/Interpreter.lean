import ScriptFlow.Shell.Bytes
import ScriptFlow.System.FileTree

/-!
How a path is turned into an installed program with arguments. A script names the program that runs
it in its first line, after the characters `#!`: the name stands between blanks, and the rest of the
line is one argument. That program may be a script too. Of a script only the first bytes are looked
at, and a name that does not end within them is none.
-/

namespace ScriptFlow

/-- The first line of a script. -/
structure InterpreterLine where
  /-- The path of the program that runs the script; empty for the working directory. -/
  path : List Char
  /-- The argument that the program gets in front of the script. -/
  argument : Option (List Char)

/-- Whether a character separates the parts of the first line. -/
def isGap (c : Char) : Bool := c = ' ' || c = '\t'

/-- How many bytes of a script are looked at. -/
def lookAhead : Nat := 256

/-- The parts of a line: the name up to the first gap, and what follows the gap. -/
def InterpreterLine.split (line : List Char) : InterpreterLine :=
  let line := line.dropWhile isGap
  match line.dropWhile (! isGap ·) with
  | [] => ⟨line, none⟩
  | rest => ⟨line.takeWhile (! isGap ·), some (rest.dropWhile isGap)⟩

/-- A line without the gaps at its end. -/
def InterpreterLine.trimmed (line : List Char) : List Char := (line.reverse.dropWhile isGap).reverse

/-- The first line of a script, given the bytes after its mark. A line that ends loses the gaps at
its end, and so does one that goes on after what is looked at. -/
def InterpreterLine.ofBytes? (bytes : List Char) : Option InterpreterLine :=
  let seen := bytes.take (lookAhead - 2)
  let line := seen.takeWhile fun c => c ≠ '\n' ∧ c.toNat ≠ 0
  if (seen.drop line.length).head? = some '\n' then
    if line.all isGap then none else some (.split (trimmed line))
  else if line.length < lookAhead - 3 then some (.split line)
  else if line.length = lookAhead - 2 ∧ (line.dropWhile isGap).all (! isGap ·) then none
  else some (.split (trimmed (line.take (lookAhead - 3))))

/-- An installed program with the arguments it is run with. -/
structure Invocation where
  /-- The name of the program. -/
  program : String
  /-- The arguments, as bytes. -/
  arguments : List (List Char)

namespace FileTree

/-- The program that a path leads to with the given arguments, through at most as many scripts as
the first argument says. A script hands its own path and its arguments on to the program in its
first line. -/
def invocation (tree : FileTree) :
    Nat → (path : List Char) → (arguments : List (List Char)) → Except FileFault Invocation
  | 0, path, _ =>
    match tree.resolve (textOf path) with
    | .ok (.file text) =>
      if (bytesOf text).take 2 = ['#', '!'] then .error .tooManyLevels else .error .denied
    | .ok (.program _) => .error .tooManyLevels
    | .ok .directory => .error .denied
    | .error fault => .error fault
  | scripts + 1, path, arguments =>
    match tree.resolve (textOf path) with
    | .ok (.program name) => .ok ⟨name, arguments⟩
    | .ok (.file text) =>
      match bytesOf text with
      | '#' :: '!' :: bytes =>
        match InterpreterLine.ofBytes? bytes with
        | none => .error .unknownForm
        | some line =>
          if line.path.isEmpty then .error .denied
          else tree.invocation scripts line.path (line.argument.toList ++ path :: arguments)
      | _ => .error .denied
    | .ok .directory => .error .denied
    | .error fault => .error fault

/-- How many scripts may stand between a path and an installed program. -/
def scriptLevels : Nat := 6

/-- The program that is run for a path or a name with the given arguments. A name without a slash is
looked for among the installed programs. -/
def start (tree : FileTree) (path : List Char) (arguments : List (List Char)) :
    Except FileFault Invocation :=
  if path.any (·.toNat = 0) then .error .zeroInPath
  else if path.contains '/' then tree.invocation scriptLevels path arguments
  else if nameLimit < path.length then .error .tooLong
  else if path = ['.'] ∨ path = ['.', '.'] then .error .denied
  else if textOf path ∈ installedPrograms then .ok ⟨textOf path, arguments⟩
  else .error .missing

end FileTree

end ScriptFlow
