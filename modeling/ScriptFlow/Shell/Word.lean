import ScriptFlow.Shell.Command

/-!
Reading the words of shell scripts: apostrophes keep everything, quotes keep all but the parts that
a dollar sign or a grave accent starts, and a backslash keeps the next character.
-/

namespace ScriptFlow.Shell

/-- The character that encloses a text as it is. -/
def apostrophe : Char := '\x27'

/-- The character that encloses a script in the older way. -/
def graveAccent : Char := '\x60'

/-- Whether a character can start a name. -/
def isNameStart (c : Char) : Bool := c.isAlpha || c = '_'

/-- Whether a character can stand in a name. -/
def isNameChar (c : Char) : Bool := isNameStart c || c.isDigit

/-- Whether characters form a name. -/
def isName (chars : List Char) : Bool :=
  match chars with
  | [] => false
  | c :: rest => isNameStart c && rest.all isNameChar

/-- Whether a character ends a word without quotes. -/
def endsWord (c : Char) : Bool :=
  c = ' ' || c = '\t' || c = '\n' || c = ';' || c = '&' || c = '|' || c = '<' || c = '>' ||
    c = '(' || c = ')'

/-- What surrounds the characters of a word. -/
inductive Surroundings where
  /-- Nothing. -/
  | bare
  /-- Quotes. -/
  | quotes
  /-- A document inside the script. -/
  | document
  /-- The braces of a parameter, without quotes. -/
  | braces
  deriving DecidableEq

/-- Whether the characters of a word stand as if between quotes. -/
def Surroundings.isQuoted : Surroundings → Bool
  | .quotes | .document => true
  | .bare | .braces => false

/-- A word with characters put in front. -/
def addText (chars : List Char) (quoted : Bool) : Word → Word
  | .text more same :: rest =>
    if same = quoted then .text (chars ++ more) quoted :: rest
    else .text chars quoted :: .text more same :: rest
  | word => .text chars quoted :: word

/-- How many choices are open after a character at the start of a word, given how many were open
before it. -/
def openChoices (choices : Nat) (chars : List Char) : Nat :=
  let word := chars.takeWhile isNameChar
  if word = "case".toList then choices + 1
  else if word = "esac".toList then choices - 1
  else choices

/-- The characters up to one that closes what an earlier one opened, and those after it; `depth` is
the number of others that are open, `choices` that of the choices, whose patterns are closed without
being opened, `starts` says whether a word can start, and `quote` is the kind of quotes that the
characters stand in. -/
def enclosed (opening closing : Char) (depth choices : Nat) (starts : Bool) (quote : Option Char) :
    List Char → Option (List Char × List Char)
  | [] => none
  | '\\' :: c :: rest =>
    let quote := if quote = some apostrophe ∧ c = apostrophe then none else quote
    (enclosed opening closing depth choices false quote rest).map fun (inside, rest) =>
      ('\\' :: c :: inside, rest)
  | c :: rest =>
    let choices := if starts ∧ quote.isNone then openChoices choices (c :: rest) else choices
    let goOn (depth : Nat) (quote : Option Char) : Option (List Char × List Char) :=
      (enclosed opening closing depth choices (! isNameChar c) quote rest).map
        fun (inside, rest) => (c :: inside, rest)
    match quote with
    | some q => if c = q then goOn depth none else goOn depth quote
    | none =>
      if c = closing then
        match depth with
        | 0 => if choices = 0 then some ([], rest) else goOn 0 none
        | depth + 1 => goOn depth none
      else if c = opening then goOn (depth + 1) none
      else if c = apostrophe ∨ c = '"' then goOn depth (some c)
      else goOn depth none

/-- The script between grave accents, and what follows; a backslash protects a grave accent, a
dollar sign or another backslash. -/
def oldScript : List Char → Option (List Char × List Char)
  | [] => none
  | '\\' :: c :: rest =>
    (oldScript rest).map fun (inside, rest) =>
      if c = graveAccent ∨ c = '\\' ∨ c = '$' then (c :: inside, rest)
      else ('\\' :: c :: inside, rest)
  | c :: rest =>
    if c = graveAccent then some ([], rest)
    else (oldScript rest).map fun (inside, rest) => (c :: inside, rest)

/-- The name that a parameter starts with, and the rest; a name, a number or a special character. -/
def parameterName : List Char → List Char × List Char
  | [] => ([], [])
  | c :: rest =>
    if isNameStart c then
      (c :: rest.takeWhile isNameChar, rest.dropWhile isNameChar)
    else if c.isDigit then (c :: rest.takeWhile Char.isDigit, rest.dropWhile Char.isDigit)
    else if "@*#?$!-".toList.contains c then ([c], rest)
    else ([], c :: rest)

/-- The modifier that follows the name of a parameter. -/
def modifierOf? : List Char → Option Modifier
  | [] => some .plain
  | ':' :: '-' :: word => some (.fallback true word)
  | ':' :: '+' :: word => some (.alternative false word)
  | ':' :: '=' :: word => some (.assign word)
  | ':' :: '?' :: _ => some .needed
  | '-' :: word => some (.fallback false word)
  | '+' :: word => some (.alternative true word)
  | '#' :: '#' :: pattern => some (.cutStart true pattern)
  | '#' :: pattern => some (.cutStart false pattern)
  | '%' :: '%' :: pattern => some (.cutEnd true pattern)
  | '%' :: pattern => some (.cutEnd false pattern)
  | _ => none

/-- The parameter between braces. -/
def bracedParameter? (inside : List Char) (quoted : Bool) : Option Part :=
  match inside, parameterName inside with
  | '#' :: c :: rest, _ =>
    match parameterName (c :: rest) with
    | (name, []) => some (.parameter name .length quoted)
    | _ => none
  | _, ([], _) => none
  | _, (name, rest) => (modifierOf? rest).map (.parameter name · quoted)

/-- The part that stands after a dollar sign, and the characters after it. -/
def dollarPart? (quoted : Bool) : List Char → Option (Part × List Char)
  | '(' :: rest =>
    (enclosed '(' ')' 0 0 true none rest).map fun (inside, rest) =>
      match inside, inside.getLast? with
      | '(' :: expression, some ')' => (.value expression.dropLast quoted, rest)
      | _, _ => (.output inside quoted, rest)
  | '\x7b' :: rest =>
    (enclosed '\x7b' '\x7d' 0 0 false none rest).bind fun (inside, rest) =>
      (bracedParameter? inside quoted).map (·, rest)
  | rest =>
    match parameterName rest with
    | ([], rest) => some (.text ['$'] quoted, rest)
    | (name, after) =>
      if (name.head?.any Char.isDigit) then
        some (.parameter (name.take 1) .plain quoted, rest.drop 1)
      else some (.parameter name .plain quoted, after)

/-- Whether a backslash between quotes keeps the next character. -/
def isKeptByBackslash (around : Surroundings) (c : Char) : Bool :=
  c = '$' || c = graveAccent || c = '\\' || (c = '"' && around ≠ .document)

/-- The word at the start of the characters, and those after it; at most as many steps are taken as
the first argument says. Quotes that are not closed leave no word. -/
def word? : Nat → Surroundings → List Char → Option (Word × List Char)
  | 0, _, _ => none
  | _ + 1, .quotes, [] => none
  | _ + 1, _, [] => some ([], [])
  | steps + 1, around, c :: rest =>
    let quoted := around.isQuoted
    if around = .bare ∧ endsWord c then some ([], c :: rest)
    else if c = '"' ∧ around = .quotes then some ([], rest)
    else if c = '"' ∧ ¬ quoted then do
      let (inside, rest) ← word? steps .quotes rest
      let (more, rest) ← word? steps around rest
      return ((if inside.isEmpty then [.text [] true] else inside) ++ more, rest)
    else if c = apostrophe ∧ ¬ quoted then
      match rest.dropWhile (· ≠ apostrophe) with
      | [] => none
      | _ :: after => do
        let (more, after) ← word? steps around after
        return (addText (rest.takeWhile (· ≠ apostrophe)) true more, after)
    else if c = '$' then do
      let (part, rest) ← dollarPart? quoted rest
      let (more, rest) ← word? steps around rest
      match part with
      | .text chars quoted => return (addText chars quoted more, rest)
      | part => return (part :: more, rest)
    else if c = graveAccent then do
      let (script, rest) ← oldScript rest
      let (more, rest) ← word? steps around rest
      return (.output script quoted :: more, rest)
    else if c = '\\' then
      match rest with
      | [] => some ([.text ['\\'] quoted], [])
      | '\n' :: rest => word? steps around rest
      | d :: rest => do
        let (more, rest) ← word? steps around rest
        if ¬ quoted ∨ isKeptByBackslash around d then return (addText [d] true more, rest)
        else return (addText ['\\', d] true more, rest)
    else do
      let (more, rest) ← word? steps around rest
      return (addText [c] quoted more, rest)

/-- The parts of a whole text with the given surroundings. -/
def wordOf? (around : Surroundings) (text : List Char) : Option Word :=
  (word? (text.length + 1) around text).map (·.1)

end ScriptFlow.Shell
