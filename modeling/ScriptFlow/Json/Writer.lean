import ScriptFlow.Json.Quoted

/-!
Writing JSON text, either without any blanks or with every member and item on a line of its own,
indented by two spaces. In both forms an empty array or object is a pair of brackets.
-/

namespace ScriptFlow

namespace Json

/-- A text as a JSON string. -/
def ofText (text : String) : Json := .string (Quoted.escape text)

/-- A whole number as a JSON number. -/
def ofInt (n : Int) : Json := .number (.ofInt n)

/-- A natural number as a JSON number. -/
def ofNat (n : Nat) : Json := .number ⟨false, n, [], none⟩

/-- An object whose keys are plain texts. -/
def record (members : List (String × Json)) : Json :=
  .object (members.map fun (key, value) => (Quoted.escape key, value))

/-- A written string with its quotes. -/
def quoted (raw : List Char) : List Char := '"' :: (raw ++ ['"'])

mutual

/-- The text of a document without blanks. -/
def chars : Json → List Char
  | .null => "null".toList
  | .bool true => "true".toList
  | .bool false => "false".toList
  | .number n => n.chars
  | .string raw => quoted raw
  | .array [] => ['[', ']']
  | .array (item :: items) => '[' :: (chars item ++ itemsChars items)
  | .object [] => ['\x7b', '\x7d']
  | .object ((key, value) :: members) =>
    '\x7b' :: (quoted key ++ ':' :: (chars value ++ membersChars members))

/-- The text of the items after the first, with the closing bracket. -/
def itemsChars : List Json → List Char
  | [] => [']']
  | item :: items => ',' :: (chars item ++ itemsChars items)

/-- The text of the members after the first, with the closing bracket. -/
def membersChars : List (List Char × Json) → List Char
  | [] => ['\x7d']
  | (key, value) :: members =>
    ',' :: (quoted key ++ ':' :: (chars value ++ membersChars members))

end

/-- The text of a document without blanks. -/
def compact (json : Json) : String := String.ofList json.chars

/-- A line break and the indentation of the given depth. -/
def newline (depth : Nat) : List Char := '\n' :: List.replicate (2 * depth) ' '

mutual

/-- The text of a document at the given depth, one line to each item and member. -/
def prettyChars (depth : Nat) : Json → List Char
  | .array (item :: items) =>
    '[' :: (newline (depth + 1) ++ prettyChars (depth + 1) item ++ prettyItems depth items)
  | .object ((key, value) :: members) =>
    '\x7b' :: (newline (depth + 1) ++ quoted key ++ [':', ' '] ++ prettyChars (depth + 1) value ++
      prettyMembers depth members)
  | json => json.chars

/-- The lines of the items after the first, with the closing bracket. -/
def prettyItems (depth : Nat) : List Json → List Char
  | [] => newline depth ++ [']']
  | item :: items =>
    ',' :: (newline (depth + 1) ++ prettyChars (depth + 1) item ++ prettyItems depth items)

/-- The lines of the members after the first, with the closing bracket. -/
def prettyMembers (depth : Nat) : List (List Char × Json) → List Char
  | [] => newline depth ++ ['\x7d']
  | (key, value) :: members =>
    ',' :: (newline (depth + 1) ++ quoted key ++ [':', ' '] ++ prettyChars (depth + 1) value ++
      prettyMembers depth members)

end

/-- The text of a document with one line to each item and member. -/
def pretty (json : Json) : String := String.ofList (json.prettyChars 0)

end Json

/-- A decimal as a JSON number: positionally with at least one decimal when the place of its leading
digit is `plain`, and otherwise with a signed power of ten. -/
def Numeral.ofDecimal (plain : Int → Bool) (negative : Bool) (d : Decimal) : Numeral :=
  let d := d.normal
  let place := d.exponent + digitCount d.digits - 1
  if plain place then
    let (whole, decimals) := d.positional
    let decimals := decimals.filterMap digitOf?
    ⟨negative, ofDigits (whole.filterMap digitOf?),
      if decimals.isEmpty then [zeroDigit] else decimals, none⟩
  else
    let digits := natDigits d.digits
    ⟨negative, ofDigits (digits.take 1), digits.drop 1, some place⟩

/-- The places of the leading digit at which data files write a single-precision number
positionally. -/
def plainPlaces (place : Int) : Bool := -6 ≤ place ∧ place ≤ 12

/-- A number as data files write it: the fewest digits that read back, an even last digit where two
are equally near; positionally when the leading digit stands between the sixth decimal and the
thirteenth whole place. Infinities and not-a-number have no such form. -/
def Numeral.ofSingle? (x : Single) : Option Numeral :=
  match x.magnitude with
  | .nan => none
  | .infinite => none
  | .finite .. => some (.ofDecimal plainPlaces x.negative (x.digits .even))

/-- A number as a JSON value; `null` stands for one that has no digits. -/
def Json.ofSingle (x : Single) : Json :=
  match Numeral.ofSingle? x with
  | some n => .number n
  | none => .null

end ScriptFlow
