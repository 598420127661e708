import ScriptFlow.Shell.Condition
import ScriptFlow.Shell.Format

/-!
Installed programs that only turn their arguments and their input into output.
-/

namespace ScriptFlow.Shell

/-- What a program does. -/
structure Effect where
  /-- What it writes. -/
  output : List Char := []
  /-- The status it ends with. -/
  status : Nat := 0
  /-- How many bytes of its input it reads, if not all of them. -/
  reads : Option Nat := some 0
  /-- How many bytes it reads at once, if it writes what it has read before it reads more. -/
  block : Option Nat := none
  /-- The milliseconds it waits. -/
  waits : Nat := 0

/-- Words with spaces between them. -/
def joined (words : List (List Char)) : List Char := [' '].intercalate words

/-- The effect of writing words, whose escapes are always replaced; `-n` in front leaves out the end
of the line. -/
def echoEscaped (words : List (List Char)) : Effect :=
  let (stay, words) := match words with
    | ['-', 'n'] :: rest => (true, rest)
    | words => (false, words)
  let (chars, ended) := unescape (joined words)
  { output := chars ++ (if stay || ended then [] else ['\n']) }

/-- Whether a word consists of options for writing words. -/
def isEchoOption (word : List Char) : Bool :=
  match word with
  | '-' :: c :: rest => (c :: rest).all fun d => d = 'n' || d = 'e' || d = 'E'
  | _ => false

/-- The effect of writing words, whose escapes are replaced if an option asks for it. -/
def echoPlain (words : List (List Char)) : Effect :=
  let options := (words.takeWhile isEchoOption).flatten
  let words := words.dropWhile isEchoOption
  let replaces := (options.filter fun c => c = 'e' ∨ c = 'E').getLast? = some 'e'
  let (chars, ended) := if replaces then unescape (joined words) else (joined words, false)
  { output := chars ++ (if options.contains 'n' || ended then [] else ['\n']) }

/-- The effect of writing arguments in a format. -/
def printFormat : List (List Char) → Effect
  | ['-', '-'] :: pattern :: arguments | pattern :: arguments =>
    let (output, status) := format pattern arguments
    { output, status }
  | [] => { status := 2 }

/-- The milliseconds of a time span: seconds, or minutes, hours or days with a letter. -/
def milliseconds? (span : List Char) : Option Nat :=
  let (digits, unit) := match span.getLast? with
    | some 's' => (span.dropLast, 1)
    | some 'm' => (span.dropLast, 60)
    | some 'h' => (span.dropLast, 3600)
    | some 'd' => (span.dropLast, 86400)
    | _ => (span, 1)
  if digits = ['i', 'n', 'f'] ∨ digits = "infinity".toList then some (tenPow 18)
  else
    (decimalLiteral? digits).map fun d =>
      match d.exponent with
      | .ofNat k => unit * d.digits * tenPow (min k 18 + 3)
      | .negSucc k => unit * d.digits * 1000 / tenPow (min (k + 1) 1000)

/-- The effect of waiting. -/
def wait (spans : List (List Char)) : Effect :=
  match spans with
  | [] => { status := 1 }
  | spans =>
    match spans.mapM milliseconds? with
    | some waits => { waits := waits.foldl (· + ·) 0 }
    | none => { status := 1 }

/-- Whether a path stands for the input. -/
def isInput (path : List Char) : Bool := path = ['-'] || path = "/dev/stdin".toList

/-- The contents of a file, or of the input. -/
def contents? (tree : FileTree) (input path : List Char) : Option (List Char) :=
  if isInput path then some input
  else
    match tree.read (textOf path) with
    | .ok text => some (bytesOf text)
    | .error _ => none

/-- The contents of several files; the input can be read only once. -/
def allContents (tree : FileTree) (input : List Char) : List (List Char) → List (Option (List Char))
  | [] => []
  | path :: rest =>
    contents? tree input path :: allContents tree (if isInput path then [] else input) rest

/-- Words split into options and others; after two hyphens there are no options. -/
def splitOptions : List (List Char) → List (List Char) × List (List Char)
  | [] => ([], [])
  | word :: rest =>
    if word = ['-', '-'] then ([], rest)
    else
      let (options, others) := splitOptions rest
      if word.head? = some '-' ∧ 1 < word.length then (word :: options, others)
      else (options, word :: others)

/-- The effect of a program that turns the contents of files, or of the input, into output. -/
def filterFiles (tree : FileTree) (input : List Char) (paths : List (List Char))
    (turn : List Char → List Char) : Effect :=
  match paths with
  | [] => { output := turn input, reads := none }
  | paths =>
    let found := allContents tree input paths
    { output := (found.map fun text => (text.map turn).getD []).flatten,
      status := if found.all Option.isSome then 0 else 1,
      reads := if paths.any isInput then none else some 0 }

/-- The effect of passing contents on. -/
def concatenate (tree : FileTree) (input : List Char) (words : List (List Char)) : Effect :=
  let (options, paths) := splitOptions words
  if options.all fun option => option = ['-', 'u'] then
    { filterFiles tree input paths id with block := if paths.isEmpty then some 65536 else none }
  else { status := 1 }

/-- The lines of a text with their ends. -/
def wholeLines : List Char → List (List Char)
  | [] => []
  | c :: rest =>
    if c = '\n' then [c] :: wholeLines rest
    else
      match wholeLines rest with
      | [] => [[c]]
      | line :: lines => (c :: line) :: lines

/-- How much of a text is kept. -/
inductive Extent where
  /-- Lines. -/
  | lines (count : Nat)
  /-- Bytes. -/
  | bytes (count : Nat)
  /-- All lines from the given one on. -/
  | onward (line : Nat)

/-- The extent that options ask for, and the words after them. -/
def extent? : List (List Char) → Option (Extent × List (List Char))
  | ['-', 'n'] :: count :: rest => (extentOf 'n' count).map (·, rest)
  | ['-', 'c'] :: count :: rest => (extentOf 'c' count).map (·, rest)
  | ('-' :: c :: count) :: rest =>
    if c.isDigit then (extentOf 'n' (c :: count)).map (·, rest)
    else (extentOf c count).map (·, rest)
  | words => some (.lines 10, words)
where
  /-- The extent that a letter and a count ask for. -/
  extentOf (letter : Char) (count : List Char) : Option Extent :=
    match letter, count with
    | 'n', '+' :: digits => (digitsValue? 10 digits).map .onward
    | 'n', digits => (digitsValue? 10 digits).map .lines
    | 'c', digits => (digitsValue? 10 digits).map .bytes
    | _, _ => none

/-- The start of a text. -/
def startOf (extent : Extent) (text : List Char) : List Char :=
  match extent with
  | .lines count | .onward count => ((wholeLines text).take count).flatten
  | .bytes count => text.take count

/-- How many bytes of the input are read for its start: all that are asked for, or whole blocks that
hold the lines. -/
def startReads (extent : Extent) (input : List Char) : Nat :=
  match extent with
  | .bytes count => count
  | extent => ((startOf extent input).length + 8191) / 8192 * 8192

/-- The effect of writing the start of files, or of the input. -/
def firstPart (tree : FileTree) (input : List Char) (words : List (List Char)) : Effect :=
  match extent? words with
  | some (extent, []) =>
    { output := startOf extent input, reads := some (startReads extent input) }
  | some (extent, paths) => filterFiles tree input paths (startOf extent)
  | none => { status := 1 }

/-- The end of a text. -/
def endOf (extent : Extent) (text : List Char) : List Char :=
  match extent with
  | .lines count => ((wholeLines text).drop ((wholeLines text).length - count)).flatten
  | .onward line => ((wholeLines text).drop (line - 1)).flatten
  | .bytes count => text.drop (text.length - count)

/-- The number of words in a text. -/
def wordCount (text : List Char) : Nat :=
  (text.foldl (fun (count, inWord) c =>
    if c = ' ' ∨ ('\t' ≤ c ∧ c ≤ '\r') then (count, false)
    else if inWord then (count, true)
    else (count + 1, true)) (0, false)).1

/-- The effect of counting lines, words or bytes of the input. -/
def countInput (input : List Char) (words : List (List Char)) : Effect :=
  let lines := natText (input.filter (· = '\n')).length
  let bytes := natText input.length
  let line (text : String) : Effect := { output := text.toList ++ ['\n'], reads := none }
  let column (text : String) : String :=
    String.ofList (List.replicate (7 - text.length) ' ') ++ text
  match words with
  | [] =>
    line (column lines ++ " " ++ column (natText (wordCount input)) ++ " " ++ column bytes)
  | [['-', 'l']] => line lines
  | [['-', 'w']] => line (natText (wordCount input))
  | [['-', 'c']] => line bytes
  | [['-', 'm']] => line (natText (textOf input).length)
  | _ => { status := 1 }

/-- The characters that a set of characters stands for. -/
def setChars : List Char → List Char
  | first :: '-' :: last :: rest =>
    (List.range (last.toNat + 1 - first.toNat)).map (fun k => Char.ofNat (first.toNat + k)) ++
      setChars rest
  | c :: rest => c :: setChars rest
  | [] => []

/-- The effect of replacing characters of the input by others, or of leaving them out. -/
def replaceChars (input : List Char) (words : List (List Char)) : Effect :=
  match words with
  | ('-' :: c :: rest) :: others =>
    if c ≠ 'd' ∨ rest ≠ [] ∨ others.length ≠ 1 then { status := 1 }
    else
      let set := setChars (unescape (others.head?.getD [])).1
      { output := input.filter (! set.contains ·), reads := none }
  | [old, new] =>
    let old := setChars (unescape old).1
    let new := setChars (unescape new).1
    let replace (c : Char) : Char :=
      match old.idxOf? c with
      | some place => (new[min place (new.length - 1)]?).getD c
      | none => c
    { output := input.map replace, reads := none, block := some 8192 }
  | _ => { status := 1 }

/-- The effect of writing consecutive numbers, one to a line. -/
def countUp (words : List (List Char)) : Effect :=
  let numbers (first last : Int) : Effect :=
    { output := (List.range (last - first + 1).toNat).flatMap fun (k : Nat) =>
        (intText (first + (k : Int))).toList ++ ['\n'] }
  match words.mapM integer? with
  | some [last] => numbers 1 last
  | some [first, last] => numbers first last
  | _ => { status := 1 }

/-- Whether a text holds another. -/
def holds (text part : List Char) : Bool :=
  match text with
  | [] => part.isEmpty
  | c :: rest => part.isPrefixOf (c :: rest) || holds rest part

/-- The effect of selecting the lines that hold a text. -/
def selectLines (tree : FileTree) (input : List Char) (words : List (List Char)) : Effect :=
  let (options, others) := splitOptions words
  let letters := options.flatMap List.tail
  match others with
  | pattern :: paths =>
    if ¬ letters.all "qcvF".toList.contains ∨ 1 < paths.length then { status := 2 }
    else
      match if paths.isEmpty then some input else contents? tree input (paths.head?.getD []) with
      | none => { status := 2 }
      | some text =>
        let found := (wholeLines text).filter fun line =>
          holds (line.filter (· ≠ '\n')) pattern ≠ letters.contains 'v'
        let status := if found.isEmpty then 1 else 0
        let ended (line : List Char) : List Char := line.filter (· ≠ '\n') ++ ['\n']
        let output :=
          if letters.contains 'q' then []
          else if letters.contains 'c' then (natText found.length).toList ++ ['\n']
          else found.flatMap ended
        { output, status, reads := if paths.isEmpty then none else some 0 }
  | [] => { status := 2 }

/-- The effect of writing lines in the order of their bytes. -/
def sortLines (tree : FileTree) (input : List Char) (words : List (List Char)) : Effect :=
  let ended (line : List Char) : List Char := line.filter (· ≠ '\n') ++ ['\n']
  match splitOptions words with
  | ([], paths) =>
    filterFiles tree input paths fun text =>
      (((wholeLines text).map ended).mergeSort FileTree.isBefore).flatten
  | _ => { status := 2 }

/-- The effect of writing the names of files. -/
def listFiles (tree : FileTree) (words : List (List Char)) : Effect :=
  let shownName (name : List Char) : List Char := name ++ ['\n']
  match words with
  | [] =>
    { output := ((tree.names "").map bytesOf).flatMap fun name =>
        if name.head? = some '.' then [] else shownName name }
  | words =>
    let (options, paths) := splitOptions words
    let found := paths.filter fun path => (tree.resolve (textOf path)).toOption.isSome
    if options.isEmpty then
      { output := found.flatMap shownName, status := if found.length = paths.length then 0 else 2 }
    else { status := 2 }

/-- The effect of a program by its name. -/
def utility? (tree : FileTree) (input : List Char) (name : String) (words : List (List Char)) :
    Option Effect :=
  match name with
  | "true" => some {}
  | "false" => some { status := 1 }
  | "cat" => some (concatenate tree input words)
  | "echo" => some (echoPlain words)
  | "printf" => some (printFormat words)
  | "sleep" => some (wait words)
  | "test" => some { status := conditionStatus tree words }
  | "wc" => some (countInput input words)
  | "head" => some (firstPart tree input words)
  | "tail" =>
    some (match extent? words with
      | some (extent, paths) => filterFiles tree input paths (endOf extent)
      | none => { status := 1 })
  | "tr" => some (replaceChars input words)
  | "seq" => some (countUp words)
  | "sort" => some (sortLines tree input words)
  | "ls" => some (listFiles tree words)
  | "grep" => some (selectLines tree input words)
  | _ => none

end ScriptFlow.Shell
