import ScriptFlow.Number.Literal
import ScriptFlow.Number.Numeral
import ScriptFlow.Shell.Arithmetic

/-!
Escapes and formats: what the commands that write texts make of backslashes and percent signs.
-/

namespace ScriptFlow.Shell

/-- The character named by a letter after a backslash. -/
def escapedChar? (c : Char) : Option Char :=
  if c = 'n' then some '\n'
  else if c = 't' then some '\t'
  else if c = 'r' then some '\r'
  else if c = 'a' then some (Char.ofNat 7)
  else if c = 'b' then some (Char.ofNat 8)
  else if c = 'v' then some (Char.ofNat 11)
  else if c = 'f' then some (Char.ofNat 12)
  else if c = '\\' then some '\\'
  else none

/-- Whether a character is an octal digit. -/
def isOctal (c : Char) : Bool := '0' ≤ c && c ≤ '7'

/-- The byte that octal digits form. -/
def octalByte (digits : List Char) : Char :=
  Char.ofNat (digits.foldl (fun total c => total * 8 + (c.toNat - '0'.toNat)) 0 % 256)

/-- Up to three octal digits at the start of characters. -/
def octalDigits (chars : List Char) : List Char := (chars.take 3).takeWhile isOctal

/-- A text with its escapes replaced, and whether the output ends with it; at most as many steps are
taken as the first argument says. A zero may stand in front of octal digits. -/
def unescaped : Nat → List Char → List Char × Bool
  | 0, _ => ([], false)
  | _, [] => ([], false)
  | steps + 1, '\\' :: c :: rest =>
    let goOn (chars rest : List Char) : List Char × Bool :=
      let (more, ended) := unescaped steps rest
      (chars ++ more, ended)
    if c = 'c' then ([], true)
    else
      match escapedChar? c with
      | some found => goOn [found] rest
      | none =>
        if isOctal c then
          let start := if c = '0' ∧ (rest.head?.any isOctal) then rest else c :: rest
          let digits := octalDigits start
          goOn [octalByte digits] (start.drop digits.length)
        else goOn ['\\', c] rest
  | steps + 1, c :: rest =>
    let (more, ended) := unescaped steps rest
    (c :: more, ended)

/-- A text with its escapes replaced, and whether the output ends with it. -/
def unescape (chars : List Char) : List Char × Bool := unescaped (chars.length + 1) chars

/-- A place for an argument in a format. -/
structure Directive where
  /-- The flags. -/
  flags : List Char
  /-- The least number of characters. -/
  width : Nat
  /-- The number of digits or characters, if given. -/
  precision : Option Nat
  /-- The letter that says what is written. -/
  letter : Char

/-- An element of a format. -/
inductive FormatItem where
  /-- A character. -/
  | char (c : Char)
  /-- A place for an argument. -/
  | directive (directive : Directive)
  /-- Something that is no place for an argument. -/
  | invalid

/-- The directive after a percent sign, and what follows it. -/
def directive? (chars : List Char) : Option (Directive × List Char) :=
  let flags := chars.takeWhile "-+ #0".toList.contains
  let chars := chars.drop flags.length
  let width := chars.takeWhile Char.isDigit
  let chars := chars.drop width.length
  let (precision, chars) := match chars with
    | '.' :: rest => (some (rest.takeWhile Char.isDigit), rest.dropWhile Char.isDigit)
    | chars => (none, chars)
  match chars with
  | [] => none
  | letter :: rest =>
    some (⟨flags, (digitsValue? 10 width).getD 0,
      precision.map fun digits => (digitsValue? 10 digits).getD 0, letter⟩, rest)

/-- The elements of a format; at most as many as the first argument says. -/
def formatItems : Nat → List Char → List FormatItem
  | 0, _ => []
  | _, [] => []
  | steps + 1, '\\' :: c :: rest =>
    match escapedChar? c with
    | some found => .char found :: formatItems steps rest
    | none =>
      if isOctal c then
        let digits := octalDigits (c :: rest)
        .char (octalByte digits) :: formatItems steps ((c :: rest).drop digits.length)
      else .char '\\' :: .char c :: formatItems steps rest
  | steps + 1, '%' :: '%' :: rest => .char '%' :: formatItems steps rest
  | steps + 1, '%' :: rest =>
    match directive? rest with
    | some (directive, rest) => .directive directive :: formatItems steps rest
    | none => [.invalid]
  | steps + 1, c :: rest => .char c :: formatItems steps rest

/-- Characters filled up to the width of a directive. -/
def Directive.pad (directive : Directive) (sign digits : List Char) (zeros : Bool) : List Char :=
  let missing := directive.width - sign.length - digits.length
  if directive.flags.contains '-' then sign ++ digits ++ List.replicate missing ' '
  else if zeros ∧ directive.flags.contains '0' then sign ++ List.replicate missing '0' ++ digits
  else List.replicate missing ' ' ++ sign ++ digits

/-- The sign of a number that is written. -/
def Directive.sign (directive : Directive) (negative : Bool) : List Char :=
  if negative then ['-']
  else if directive.flags.contains '+' then ['+']
  else if directive.flags.contains ' ' then [' ']
  else []

/-- A whole number as a directive asks for. -/
def Directive.whole (directive : Directive) (n : Int) : List Char :=
  let least := directive.precision.getD 1
  let fill (digits : List Char) : List Char :=
    List.replicate (least - digits.length) '0' ++ digits
  let word := (BitVec.ofInt 64 n).toNat
  let zeros := directive.precision.isNone
  match directive.letter with
  | 'u' => directive.pad [] (fill (Nat.toDigits 10 word)) zeros
  | 'o' => directive.pad [] (fill (Nat.toDigits 8 word)) zeros
  | 'x' => directive.pad [] (fill (Nat.toDigits 16 word)) zeros
  | 'X' => directive.pad [] (fill ((Nat.toDigits 16 word).map Char.toUpper)) zeros
  | _ => directive.pad (directive.sign (n < 0)) (fill (Nat.toDigits 10 n.natAbs)) zeros

/-- A decimal with the digits after the point that a directive asks for: the double nearest to it,
rounded to them, with a half going to the even neighbour. -/
def Directive.decimal (directive : Directive) (negative : Bool) (d : Decimal) : List Char :=
  let places := directive.precision.getD 6
  match d.round BinaryFormat.binary64 with
  | .overflow => directive.pad (directive.sign negative) ['i', 'n', 'f'] false
  | .finite significand exponent =>
    let (n, m) := scaleDown (significand * tenPow places) 1 (-exponent)
    let digits := (padded (places + 1) (roundDivEven n m)).toList
    let whole := digits.take (digits.length - places)
    let decimals := digits.drop (digits.length - places)
    directive.pad (directive.sign negative)
      (if places = 0 then whole else whole ++ '.' :: decimals) true

/-- The number that an argument of a format starts with, and whether it is the whole argument. -/
def leadingInteger (chars : List Char) : Int × Bool :=
  match chars with
  | [] => (0, true)
  | '"' :: c :: _ => (c.toNat, true)
  | c :: d :: rest =>
    if c = apostrophe then (d.toNat, true)
    else if let some n := integer? (c :: d :: rest) then (n, true)
    else
      let sign := if c = '-' ∨ c = '+' then [c] else []
      let digits := (chars.drop sign.length).takeWhile Char.isDigit
      ((integer? (sign ++ digits)).getD 0, false)
  | chars =>
    match integer? chars with
    | some n => (n, true)
    | none => (0, false)

/-- What a directive makes of an argument: the characters, whether the argument was in order, and
whether the output ends with it. -/
def Directive.apply (directive : Directive) (argument : List Char) : List Char × Bool × Bool :=
  let cut (chars : List Char) : List Char :=
    match directive.precision with
    | some limit => chars.take limit
    | none => chars
  match directive.letter with
  | 's' => (directive.pad [] (cut argument) false, true, false)
  | 'b' =>
    let (chars, ended) := unescape argument
    (directive.pad [] (cut chars) false, true, ended)
  | 'c' => (directive.pad [] (argument.take 1) false, true, false)
  | 'f' | 'F' =>
    let negative := argument.head? = some '-'
    let digits := if negative ∨ argument.head? = some '+' then argument.tail else argument
    match if digits.isEmpty then some ⟨0, 0⟩ else decimalLiteral? digits with
    | some d => (directive.decimal negative d, true, false)
    | none => (directive.decimal false ⟨0, 0⟩, false, false)
  | _ =>
    let (n, fine) := leadingInteger argument
    (directive.whole n, fine, false)

/-- What a format has written. -/
structure Formatted where
  /-- The characters. -/
  chars : List Char := []
  /-- The arguments that are left. -/
  left : List (List Char) := []
  /-- Whether an argument was used. -/
  used : Bool := false
  /-- The status. -/
  status : Nat := 0
  /-- Whether nothing more is written. -/
  ended : Bool := false

/-- What elements of a format write. -/
def fillItems (state : Formatted) : List FormatItem → Formatted
  | [] => state
  | .char c :: rest => fillItems { state with chars := state.chars ++ [c] } rest
  | .invalid :: _ => { state with status := 2, ended := true }
  | .directive directive :: rest =>
    if "diouxXscbfF".toList.contains directive.letter then
      let (chars, fine, ended) := directive.apply (state.left.head?.getD [])
      let state := { state with
        chars := state.chars ++ chars, left := state.left.tail, used := true,
        status := if fine then state.status else 1, ended }
      if ended then state else fillItems state rest
    else { state with status := 2, ended := true }

/-- What a format writes, used again as long as arguments are left, but at most as often as the
first argument says. -/
def fillFormat (items : List FormatItem) : Nat → Formatted → Formatted
  | 0, state => state
  | times + 1, state =>
    let state := fillItems { state with used := false } items
    if state.ended ∨ ¬ state.used ∨ state.left.isEmpty then state
    else fillFormat items times state

/-- The characters that a format and its arguments give, and the status. -/
def format (pattern : List Char) (arguments : List (List Char)) : List Char × Nat :=
  let items := formatItems (pattern.length + 1) pattern
  let state := fillFormat items (arguments.length + 1) { left := arguments }
  (state.chars, state.status)

end ScriptFlow.Shell
