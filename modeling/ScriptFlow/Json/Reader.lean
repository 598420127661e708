import ScriptFlow.Json.Quoted

/-!
Reading JSON text. The grammar is the strict one: four blank characters, no comments, no trailing
commas, no leading zeros, no raw control characters in strings, and nothing after the document.
-/

namespace ScriptFlow.Json

/-- Whether a character may stand between tokens. -/
def isBlank (c : Char) : Bool := c = ' ' ∨ c = '\n' ∨ c = '\t' ∨ c = '\r'

/-- The text from its first character that is not blank. -/
def skipBlank (cs : List Char) : List Char := cs.dropWhile isBlank

/-- The written characters of a string up to its closing quote, after those already read, which
come in reverse, and what follows the quote. -/
def scanString (read : List Char) : List Char → Option (List Char × List Char)
  | [] => none
  | '"' :: rest => some (read.reverse, rest)
  | '\\' :: 'u' :: a :: b :: c :: d :: rest =>
    if (Quoted.hexUnit? a b c d).isSome then
      scanString (d :: c :: b :: a :: 'u' :: '\\' :: read) rest
    else none
  | '\\' :: c :: rest =>
    if (Quoted.shortEscape? c).isSome then scanString (c :: '\\' :: read) rest else none
  | c :: rest => if c = '\\' ∨ c.toNat < 32 then none else scanString (c :: read) rest

/-- The digits after a point; there has to be one. -/
def scanFraction : List Char → Option (List (Fin 10) × List Char)
  | '.' :: rest =>
    match spanDigits [] rest with
    | ([], _) => none
    | found => some found
  | rest => some ([], rest)

/-- The digits before the point: a zero alone, or digits that do not start with one. -/
def scanWhole (cs : List Char) : Option (Nat × List Char) :=
  match spanDigits [] cs with
  | ([], _) => none
  | (first :: more, rest) =>
    if first = zeroDigit ∧ ¬ more.isEmpty then none else some (ofDigits (first :: more), rest)

/-- A number at the front of a text. -/
def scanNumeral (cs : List Char) : Option (Numeral × List Char) := do
  let (negative, cs) := match cs with
    | '-' :: rest => (true, rest)
    | rest => (false, rest)
  let (whole, cs) ← scanWhole cs
  let (fraction, cs) ← scanFraction cs
  let (exponent, cs) ← scanExponent cs
  return (⟨negative, whole, fraction, exponent⟩, cs)

mutual

/-- A value at the front of a text, and what follows it. Every call spends one unit of fuel, and
every second call consumes a character. -/
def readValue : Nat → List Char → Option (Json × List Char)
  | 0, _ => none
  | fuel + 1, cs =>
    match skipBlank cs with
    | 'n' :: 'u' :: 'l' :: 'l' :: rest => some (.null, rest)
    | 't' :: 'r' :: 'u' :: 'e' :: rest => some (.bool true, rest)
    | 'f' :: 'a' :: 'l' :: 's' :: 'e' :: rest => some (.bool false, rest)
    | '"' :: rest => (scanString [] rest).map fun (raw, rest) => (.string raw, rest)
    | '[' :: rest =>
      match skipBlank rest with
      | ']' :: rest => some (.array [], rest)
      | rest => readItems fuel [] rest
    | '\x7b' :: rest =>
      match skipBlank rest with
      | '\x7d' :: rest => some (.object [], rest)
      | rest => readMembers fuel [] rest
    | rest => (scanNumeral rest).map fun (n, rest) => (.number n, rest)

/-- The rest of an array that is not empty, after the items already read, which come in
reverse. -/
def readItems : Nat → List Json → List Char → Option (Json × List Char)
  | 0, _, _ => none
  | fuel + 1, read, cs =>
    match readValue fuel cs with
    | none => none
    | some (item, rest) =>
      match skipBlank rest with
      | ',' :: rest => readItems fuel (item :: read) rest
      | ']' :: rest => some (.array (item :: read).reverse, rest)
      | _ => none

/-- The rest of an object that is not empty, after the members already read, which come in
reverse. -/
def readMembers : Nat → List (List Char × Json) → List Char → Option (Json × List Char)
  | 0, _, _ => none
  | fuel + 1, read, cs =>
    match skipBlank cs with
    | '"' :: rest =>
      match scanString [] rest with
      | none => none
      | some (key, rest) =>
        match skipBlank rest with
        | ':' :: rest =>
          match readValue fuel rest with
          | none => none
          | some (value, rest) =>
            match skipBlank rest with
            | ',' :: rest => readMembers fuel ((key, value) :: read) rest
            | '\x7d' :: rest => some (.object ((key, value) :: read).reverse, rest)
            | _ => none
        | _ => none
    | _ => none

end

/-- The document that a text consists of. -/
def read? (text : String) : Option Json :=
  let cs := text.toList
  match readValue (2 * cs.length + 2) cs with
  | some (value, rest) => if (skipBlank rest).isEmpty then some value else none
  | none => none

end ScriptFlow.Json
