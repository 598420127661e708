import ScriptFlow.Json.Quoted

/-!
The characters of TOML: blanks, comments, line ends, strings and keys. A string stands between
quotes or apostrophes, once or three times; only quotes allow escapes, and only three of them allow
line breaks. A line break inside a string is one line feed, however it is written.
-/

namespace ScriptFlow.Toml

/-- Whether a character separates tokens on a line. -/
def isBlank (c : Char) : Bool := c = ' ' ∨ c = '\t'

/-- The text from its first character that is not blank. -/
def skipBlank (cs : List Char) : List Char := cs.dropWhile isBlank

/-- Whether a character may stand in comments and strings: no control character but the tab. -/
def isPrintable (c : Char) : Bool := c = '\t' ∨ (32 ≤ c.toNat ∧ c.toNat ≠ 127)

/-- What follows a line end; the text may end instead. -/
def lineEnd? : List Char → Option (List Char)
  | [] => some []
  | '\n' :: rest => some rest
  | '\r' :: '\n' :: rest => some rest
  | _ => none

/-- The text without the comment that it starts with. -/
def skipComment : List Char → List Char
  | '#' :: rest => rest.dropWhile isPrintable
  | rest => rest

/-- What follows the current line, on which only a comment may be left. -/
def restOfLine? (cs : List Char) : Option (List Char) := lineEnd? (skipComment (skipBlank cs))

/-- The text without the blanks, line breaks and comments that it starts with. -/
def skipLayout (inComment : Bool) : List Char → List Char
  | [] => []
  | '\n' :: rest => skipLayout false rest
  | '\r' :: '\n' :: rest => skipLayout false rest
  | c :: rest =>
    if inComment then (if isPrintable c then skipLayout true rest else c :: rest)
    else if isBlank c then skipLayout false rest
    else if c = '#' then skipLayout true rest
    else c :: rest

/-- The apostrophe. -/
def apostrophe : Char := '\x27'

/-- The character named by a one-letter escape. -/
def shortEscape? (c : Char) : Option Char :=
  if c = '/' then none else Quoted.shortEscape? c

/-- The number written with hexadecimal digits. -/
def hexNumber? (digits : List Char) : Option Nat :=
  digits.foldlM (fun n c => (Quoted.hexValue? c).map (n * 16 + ·)) 0

/-- The character with the code point that hexadecimal digits write. -/
def scalar? (digits : List Char) : Option Char :=
  match hexNumber? digits with
  | some n => if n.isValidChar then some (Char.ofNat n) else none
  | none => none

/-- A string in single quotes, after the opening one; what was read of it comes in reverse. -/
def scanBasic (read : List Char) : List Char → Option (String × List Char)
  | [] => none
  | '"' :: rest => some (String.ofList read.reverse, rest)
  | '\\' :: 'u' :: a :: b :: c :: d :: rest =>
    match scalar? [a, b, c, d] with
    | some found => scanBasic (found :: read) rest
    | none => none
  | '\\' :: 'U' :: a :: b :: c :: d :: e :: f :: g :: h :: rest =>
    match scalar? [a, b, c, d, e, f, g, h] with
    | some found => scanBasic (found :: read) rest
    | none => none
  | '\\' :: c :: rest =>
    match shortEscape? c with
    | some found => scanBasic (found :: read) rest
    | none => none
  | c :: rest => if c ≠ '\\' ∧ isPrintable c then scanBasic (c :: read) rest else none

/-- Where a backslash at the end of a line has led. -/
inductive Joining where
  /-- Nowhere: characters count. -/
  | off
  /-- Up to the line break, which has to come. -/
  | sought
  /-- Past the line break: blanks and further line breaks are dropped. -/
  | found
  deriving DecidableEq

/-- Whether a character can follow a backslash that joins lines. -/
def startsJoin (c : Char) : Bool := isBlank c ∨ c = '\n' ∨ c = '\r'

/-- A string in three quotes, after the opening ones. Up to two quotes may stand right before the
closing ones. -/
def scanLongBasic (read : List Char) : Joining → List Char → Option (String × List Char)
  | _, [] => none
  | .sought, '\n' :: rest => scanLongBasic read .found rest
  | .sought, '\r' :: '\n' :: rest => scanLongBasic read .found rest
  | .sought, c :: rest => if isBlank c then scanLongBasic read .sought rest else none
  | .found, '\n' :: rest => scanLongBasic read .found rest
  | .found, '\r' :: '\n' :: rest => scanLongBasic read .found rest
  | .off, '\n' :: rest => scanLongBasic ('\n' :: read) .off rest
  | .off, '\r' :: '\n' :: rest => scanLongBasic ('\n' :: read) .off rest
  | _, '"' :: '"' :: '"' :: '"' :: '"' :: rest =>
    some (String.ofList ('"' :: '"' :: read).reverse, rest)
  | _, '"' :: '"' :: '"' :: '"' :: rest => some (String.ofList ('"' :: read).reverse, rest)
  | _, '"' :: '"' :: '"' :: rest => some (String.ofList read.reverse, rest)
  | _, '\\' :: 'u' :: a :: b :: c :: d :: rest =>
    match scalar? [a, b, c, d] with
    | some found => scanLongBasic (found :: read) .off rest
    | none => none
  | _, '\\' :: 'U' :: a :: b :: c :: d :: e :: f :: g :: h :: rest =>
    match scalar? [a, b, c, d, e, f, g, h] with
    | some found => scanLongBasic (found :: read) .off rest
    | none => none
  | _, '\\' :: c :: rest =>
    if startsJoin c then scanLongBasic read .sought (c :: rest)
    else match shortEscape? c with
      | some found => scanLongBasic (found :: read) .off rest
      | none => none
  | joining, c :: rest =>
    if joining = .found ∧ isBlank c then scanLongBasic read .found rest
    else if c ≠ '\\' ∧ isPrintable c then scanLongBasic (c :: read) .off rest
    else none

/-- A string between apostrophes, after the opening one. -/
def scanLiteral (cs : List Char) : Option (String × List Char) :=
  match cs.span fun c => isPrintable c && c != apostrophe with
  | (body, '\x27' :: rest) => some (String.ofList body, rest)
  | _ => none

/-- A string between three apostrophes, after the opening ones. Up to two apostrophes may stand
right before the closing ones. -/
def scanLongLiteral (read : List Char) : List Char → Option (String × List Char)
  | [] => none
  | '\x27' :: '\x27' :: '\x27' :: '\x27' :: '\x27' :: rest =>
    some (String.ofList (apostrophe :: apostrophe :: read).reverse, rest)
  | '\x27' :: '\x27' :: '\x27' :: '\x27' :: rest =>
    some (String.ofList (apostrophe :: read).reverse, rest)
  | '\x27' :: '\x27' :: '\x27' :: rest => some (String.ofList read.reverse, rest)
  | '\n' :: rest => scanLongLiteral ('\n' :: read) rest
  | '\r' :: '\n' :: rest => scanLongLiteral ('\n' :: read) rest
  | c :: rest => if isPrintable c then scanLongLiteral (c :: read) rest else none

/-- The text without the line break that it starts with. -/
def skipLineBreak : List Char → List Char
  | '\n' :: rest => rest
  | '\r' :: '\n' :: rest => rest
  | rest => rest

/-- A string at the front of a text. A line break right after three opening quotes or apostrophes
is dropped. -/
def scanString? : List Char → Option (String × List Char)
  | '"' :: '"' :: '"' :: rest => scanLongBasic [] .off (skipLineBreak rest)
  | '"' :: rest => scanBasic [] rest
  | '\x27' :: '\x27' :: '\x27' :: rest => scanLongLiteral [] (skipLineBreak rest)
  | '\x27' :: rest => scanLiteral rest
  | _ => none

/-- Whether a character may stand in a key without quotes. -/
def isBareKeyChar (c : Char) : Bool := c.isAlphanum ∨ c = '_' ∨ c = '-'

/-- One part of a key, with the blanks around it. -/
def scanKeyPart? (cs : List Char) : Option (String × List Char) :=
  let found := match skipBlank cs with
    | '"' :: rest => scanBasic [] rest
    | '\x27' :: rest => scanLiteral rest
    | rest => match rest.span isBareKeyChar with
      | ([], _) => none
      | (bare, rest) => some (String.ofList bare, rest)
  found.map fun (part, rest) => (part, skipBlank rest)

/-- The parts of a key, separated by dots; `room` bounds their number. -/
def scanKeyParts? : Nat → List Char → Option (List String × List Char)
  | 0, _ => none
  | room + 1, cs =>
    match scanKeyPart? cs with
    | none => none
    | some (part, '.' :: rest) =>
      (scanKeyParts? room rest).map fun (parts, rest) => (part :: parts, rest)
    | some (part, rest) => some ([part], rest)

/-- How many parts a key may have, and how many brackets may be open at once. -/
def nestingLimit : Nat := 79

/-- A key: the parts that lead to it and its last part. -/
def scanKey? (cs : List Char) : Option (List String × String × List Char) :=
  match scanKeyParts? nestingLimit cs with
  | some (parts, rest) =>
    match parts.reverse with
    | last :: before => some (before.reverse, last, rest)
    | [] => none
  | none => none

end ScriptFlow.Toml
