import ScriptFlow.Toml.Outline
import ScriptFlow.Toml.Scalar
import ScriptFlow.Toml.Text

/-!
Reading TOML text: lines with a header, a key and its value, or nothing, each of which may end with
a comment. Arrays may run over several lines and end with a comma; inline tables may do neither.
-/

namespace ScriptFlow.Toml

mutual

/-- A value at the front of a text. Every call spends one unit of fuel, and every second call
consumes a character; an opening bracket uses up one unit of room. -/
def readValue : Nat → Nat → List Char → Option (Value × List Char)
  | 0, _, _ => none
  | fuel + 1, room, cs =>
    match cs, room with
    | '[' :: rest, room + 1 => readItems fuel room [] rest
    | '\x7b' :: rest, room + 1 =>
      match skipBlank rest with
      | '\x7d' :: rest => some (.table [], rest)
      | rest => readMembers fuel room [] rest
    | _, _ =>
      match scanString? cs with
      | some (text, rest) => some (.text text, rest)
      | none => scanWord? cs

/-- The rest of an array after the items already read, which come in reverse. -/
def readItems : Nat → Nat → List Value → List Char → Option (Value × List Char)
  | 0, _, _, _ => none
  | fuel + 1, room, read, cs =>
    match skipLayout false cs with
    | ']' :: rest => some (.array read.reverse, rest)
    | cs =>
      match readValue fuel room cs with
      | none => none
      | some (item, rest) =>
        match skipLayout false rest with
        | ',' :: rest => readItems fuel room (item :: read) rest
        | ']' :: rest => some (.array (item :: read).reverse, rest)
        | _ => none

/-- The rest of an inline table that is not empty, given its members so far. -/
def readMembers : Nat → Nat → Members → List Char → Option (Value × List Char)
  | 0, _, _, _ => none
  | fuel + 1, room, members, cs =>
    match scanKey? cs with
    | some (path, key, '=' :: rest) =>
      match readValue fuel room (skipBlank rest) with
      | none => none
      | some (value, rest) =>
        match members.define key value path with
        | none => none
        | some members =>
          match skipBlank rest with
          | ',' :: rest => readMembers fuel room members rest
          | '\x7d' :: rest => some (.table (finishMembers members), rest)
          | _ => none
    | _ => none

end

/-- A header line, after its first bracket. -/
def readHeader (outline : Outline) (cs : List Char) : Option (Outline × List Char) :=
  match cs with
  | '[' :: rest =>
    match scanKey? rest with
    | some (path, key, ']' :: ']' :: rest) => do
      return (← outline.openElement path key, ← restOfLine? rest)
    | _ => none
  | _ =>
    match scanKey? cs with
    | some (path, key, ']' :: rest) => do
      return (← outline.openTable path key, ← restOfLine? rest)
    | _ => none

/-- A line with a key and its value. -/
def readPair (outline : Outline) (cs : List Char) : Option (Outline × List Char) :=
  match scanKey? cs with
  | some (path, key, '=' :: rest) =>
    let rest := skipBlank rest
    match readValue (2 * rest.length + 2) nestingLimit rest with
    | none => none
    | some (value, rest) => do
      return (← outline.define path key value, ← restOfLine? rest)
  | _ => none

/-- The document that the remaining lines complete; every line spends one unit of fuel. -/
def readLines : Nat → Outline → List Char → Option Value
  | 0, _, _ => none
  | fuel + 1, outline, cs =>
    match skipBlank cs with
    | [] => some outline.finish
    | '[' :: rest =>
      match readHeader outline rest with
      | some (outline, rest) => readLines fuel outline rest
      | none => none
    | c :: rest =>
      if c = '#' ∨ c = '\n' ∨ c = '\r' then
        match restOfLine? (c :: rest) with
        | some rest => readLines fuel outline rest
        | none => none
      else
        match readPair outline (c :: rest) with
        | some (outline, rest) => readLines fuel outline rest
        | none => none

/-- The text without the byte order mark that it may start with. -/
def skipMark : List Char → List Char
  | '\ufeff' :: rest => rest
  | rest => rest

/-- The document that a text is. -/
def read? (text : String) : Option Value :=
  let cs := skipMark text.toList
  readLines (cs.length + 1) {} cs

end ScriptFlow.Toml
