import ScriptFlow.Shell.Arithmetic
import ScriptFlow.Shell.Bytes
import ScriptFlow.System.FileTree

/-!
Conditions on texts, numbers and files, given as lists of words.
-/

namespace ScriptFlow.Shell

/-- Whether an operator on one word holds. -/
def unaryCondition? (tree : FileTree) (operator word : List Char) : Option Bool :=
  let entry := (tree.resolve (textOf word)).toOption
  match String.ofList operator, entry with
  | "-n", _ => some (! word.isEmpty)
  | "-z", _ => some word.isEmpty
  | "-e", entry => some entry.isSome
  | "-f", some (.file _) | "-f", some (.program _) => some true
  | "-f", _ => some false
  | "-d", some .directory => some true
  | "-d", _ => some false
  | "-s", some (.file text) => some (! text.isEmpty)
  | "-s", entry => some entry.isSome
  | "-r", entry => some entry.isSome
  | "-w", entry => some entry.isSome
  | "-x", some (.file text) => some ((bytesOf text).take 2 = ['#', '!'])
  | "-x", entry => some entry.isSome
  | "-L", _ | "-h", _ | "-p", _ | "-b", _ | "-c", _ | "-S", _ | "-t", _ => some false
  | _, _ => none

/-- Whether an operator between two words holds: nothing if it is none, and a fault if it compares
what are no numbers. -/
def binaryCondition? (first operator second : List Char) : Option (Option Bool) :=
  let compare (holds : Int → Int → Bool) : Option (Option Bool) :=
    some do
      let x ← integer? (trimBlanks first)
      let y ← integer? (trimBlanks second)
      return holds x y
  match String.ofList operator with
  | "=" => some (some (first = second))
  | "!=" => some (some (first ≠ second))
  | "-eq" => compare fun x y => x = y
  | "-ne" => compare fun x y => x ≠ y
  | "-lt" => compare fun x y => x < y
  | "-le" => compare fun x y => x ≤ y
  | "-gt" => compare fun x y => y < x
  | "-ge" => compare fun x y => y ≤ x
  | _ => none

mutual

/-- The truth of the alternatives at the start of words, and the words after them; `levels` bounds
the depth. -/
def alternatives? (tree : FileTree) (levels : Nat) (words : List (List Char)) :
    Option (Bool × List (List Char)) :=
  match levels with
  | 0 => none
  | levels + 1 => do
    let (first, rest) ← conjunction? tree levels words
    match rest with
    | ['-', 'o'] :: rest =>
      let (second, rest) ← alternatives? tree levels rest
      return (first || second, rest)
    | rest => return (first, rest)

/-- The truth of conditions that have to hold together. -/
def conjunction? (tree : FileTree) (levels : Nat) (words : List (List Char)) :
    Option (Bool × List (List Char)) :=
  match levels with
  | 0 => none
  | levels + 1 => do
    let (first, rest) ← primary? tree levels words
    match rest with
    | ['-', 'a'] :: rest =>
      let (second, rest) ← conjunction? tree levels rest
      return (first && second, rest)
    | rest => return (first, rest)

/-- The truth of a single condition. -/
def primary? (tree : FileTree) (levels : Nat) (words : List (List Char)) :
    Option (Bool × List (List Char)) :=
  match levels with
  | 0 => none
  | levels + 1 =>
    match words with
    | [] => none
    | [word] => some (! word.isEmpty, [])
    | first :: operator :: rest =>
      match rest, binaryCondition? first operator (rest.head?.getD []) with
      | _ :: rest, some holds => holds.map (·, rest)
      | _, _ =>
        if first = ['!'] then
          (primary? tree levels (operator :: rest)).map fun (holds, rest) => (! holds, rest)
        else if first = ['('] then
          match alternatives? tree levels (operator :: rest) with
          | some (holds, [')'] :: rest) => some (holds, rest)
          | _ => none
        else
          match unaryCondition? tree first operator with
          | some holds => some (holds, rest)
          | none => some (! first.isEmpty, operator :: rest)

end

/-- The status of a condition: zero if it holds, one if it does not, two if it is none. -/
def conditionStatus (tree : FileTree) (words : List (List Char)) : Nat :=
  match words with
  | [] => 1
  | words =>
    match alternatives? tree (3 * words.length + 3) words with
    | some (true, []) => 0
    | some (false, []) => 1
    | _ => 2

end ScriptFlow.Shell
