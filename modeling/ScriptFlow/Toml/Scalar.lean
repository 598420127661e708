import ScriptFlow.Json.Quoted
import ScriptFlow.Number.Digits
import ScriptFlow.Toml.Basic

/-!
TOML values that are single words: truth values, numbers, dates and times. Digits may be grouped by
single underscores. A whole number has 64 bits with sign; a number with a point or a power of ten
may be negative beyond all bounds, but not positive.
-/

namespace ScriptFlow.Toml

/-- Whether a character belongs to a word. -/
def isWordChar (c : Char) : Bool :=
  c.isAlphanum ∨ c = '_' ∨ c = '+' ∨ c = '-' ∨ c = '.' ∨ c = ':'

/-- The digits of a group sequence, after a digit or not: an underscore stands only between two
digits. -/
def grouped? {δ : Type} (digit? : Char → Option δ) (afterDigit : Bool) :
    List Char → Option (List δ)
  | [] => if afterDigit then some [] else none
  | '_' :: rest => if afterDigit then grouped? digit? false rest else none
  | c :: rest =>
    match digit? c with
    | some d => (grouped? digit? true rest).map (d :: ·)
    | none => none

/-- Whether a character is a decimal digit or groups digits. -/
def isDigitOrGroup (c : Char) : Bool := c.isDigit ∨ c = '_'

/-- The decimal digits at the front of a text; there has to be one. -/
def scanGrouped? (cs : List Char) : Option (List (Fin 10) × List Char) :=
  match cs.span isDigitOrGroup with
  | (run, rest) => (grouped? digitOf? false run).map (·, rest)

/-- A sign at the front of a text: whether it is a minus. -/
def scanSign : List Char → Bool × List Char
  | '-' :: rest => (true, rest)
  | '+' :: rest => (false, rest)
  | rest => (false, rest)

/-- The power of ten that a text consists of. -/
def power? (cs : List Char) : Option Int :=
  match scanSign cs with
  | (negative, rest) =>
    match scanGrouped? rest with
    | some (digits, []) => some (if negative then -(ofDigits digits : Int) else ofDigits digits)
    | _ => none

/-- A number read in double precision and rounded to single. -/
def floatOf? (negative : Bool) (d : Decimal) : Option Value :=
  match negative, d.round BinaryFormat.binary64 with
  | false, .overflow => none
  | _, rounded => some (.float (.ofDouble negative rounded))

/-- A whole number within 64 bits. -/
def intOf? (n : Int) : Option Value :=
  if -twoPow 63 ≤ n ∧ n < twoPow 63 then some (.int n) else none

/-- A decimal number: whole, or with a point, a power of ten or both. -/
def decimalOf? (negative : Bool) (cs : List Char) : Option Value :=
  match scanGrouped? cs with
  | none => none
  | some (whole, rest) =>
    if whole.head? = some zeroDigit ∧ (cs.takeWhile isDigitOrGroup).length ≠ 1 then none
    else
      match rest with
      | [] => intOf? (if negative then -(ofDigits whole : Int) else ofDigits whole)
      | '.' :: rest =>
        match scanGrouped? rest with
        | none => none
        | some (fraction, rest) =>
          let places : Int := fraction.length
          let digits := ofDigits (whole ++ fraction)
          match rest with
          | [] => floatOf? negative ⟨digits, -places⟩
          | c :: rest =>
            if c = 'e' ∨ c = 'E' then
              (power? rest).bind fun power => floatOf? negative ⟨digits, power - places⟩
            else none
      | c :: rest =>
        if c = 'e' ∨ c = 'E' then
          (power? rest).bind fun power => floatOf? negative ⟨ofDigits whole, power⟩
        else none

/-- The value of a digit below a radix. -/
def radixDigit? (radix : Nat) (c : Char) : Option Nat :=
  match Quoted.hexValue? c with
  | some d => if d < radix then some d else none
  | none => none

/-- A whole number in the given radix. -/
def radixInt? (radix : Nat) (cs : List Char) : Option Value :=
  (grouped? (radixDigit? radix) false cs).bind fun digits =>
    intOf? (digits.foldl (fun n d => n * radix + d) 0 : Nat)

/-- A number. -/
def numberOf? (cs : List Char) : Option Value :=
  match cs with
  | '0' :: 'x' :: digits => radixInt? 16 digits
  | '0' :: 'o' :: digits => radixInt? 8 digits
  | '0' :: 'b' :: digits => radixInt? 2 digits
  | _ =>
    match scanSign cs with
    | (negative, ['i', 'n', 'f']) => some (.float (.infinity negative))
    | (_, ['n', 'a', 'n']) => some (.float .nan)
    | (negative, digits) => decimalOf? negative digits

/-- Two decimal digits at the front of a text, as a number of at most `most`. -/
def scanPair? (most : Nat) : List Char → Option (Nat × List Char)
  | a :: b :: rest =>
    match digitOf? a, digitOf? b with
    | some a, some b =>
      let n := ofDigits [a, b]
      if n ≤ most then some (n, rest) else none
    | _, _ => none
  | _ => none

/-- A character that has to come next. -/
def expect? (expected : Char) : List Char → Option (List Char)
  | c :: rest => if c = expected then some rest else none
  | [] => none

/-- The number of days of a month. -/
def daysIn (year month : Nat) : Nat :=
  if month = 2 then
    (if year % 4 = 0 ∧ (year % 100 ≠ 0 ∨ year % 400 = 0) then 29 else 28)
  else if month ∈ [4, 6, 9, 11] then 30
  else 31

/-- What follows a date. -/
def afterDate? (cs : List Char) : Option (List Char) := do
  let (century, cs) ← scanPair? 99 cs
  let (year, cs) ← scanPair? 99 cs
  let (month, cs) ← scanPair? 12 (← expect? '-' cs)
  let (day, cs) ← scanPair? 31 (← expect? '-' cs)
  if 1 ≤ month ∧ 1 ≤ day ∧ day ≤ daysIn (100 * century + year) month then some cs else none

/-- What follows a time of day; a minute may have a leap second. -/
def afterTime? (cs : List Char) : Option (List Char) := do
  let (_, cs) ← scanPair? 23 cs
  let (_, cs) ← scanPair? 59 (← expect? ':' cs)
  let (_, cs) ← scanPair? 60 (← expect? ':' cs)
  match cs with
  | '.' :: rest =>
    match spanDigits [] rest with
    | ([], _) => none
    | (_, rest) => some rest
  | rest => some rest

/-- What follows the distance from universal time. -/
def afterZone? : List Char → Option (List Char)
  | [] => some []
  | c :: rest =>
    if c = 'Z' ∨ c = 'z' then some rest
    else if c = '+' ∨ c = '-' then do
      let (_, rest) ← scanPair? 23 rest
      let (_, rest) ← scanPair? 59 (← expect? ':' rest)
      return rest
    else none

/-- Whether a word is a time of day with or without a zone. -/
def isZonedTime (word : List Char) : Bool := (afterTime? word).bind afterZone? = some []

/-- Whether a word is a date. -/
def isDate (word : List Char) : Bool := afterDate? word = some []

/-- Whether a word is a date, a time of day, or a date with a time after the letter `T`. -/
def isMoment (word : List Char) : Bool :=
  match afterDate? word with
  | some [] => true
  | some (c :: rest) => (c = 'T' || c = 't') && isZonedTime rest
  | none => afterTime? word = some []

/-- The value of a word. -/
def wordValue? (word : List Char) : Option Value :=
  if word = ['t', 'r', 'u', 'e'] then some (.bool true)
  else if word = ['f', 'a', 'l', 's', 'e'] then some (.bool false)
  else if isMoment word then some .moment
  else numberOf? word

/-- A word at the front of a text. A date may be followed by one space and a time of day. -/
def scanWord? (cs : List Char) : Option (Value × List Char) :=
  match cs.span isWordChar with
  | (word, rest) =>
    match isDate word, rest with
    | true, ' ' :: more =>
      match more.span isWordChar with
      | ([], _) => some (.moment, rest)
      | (time, rest) => if isZonedTime time then some (.moment, rest) else none
    | _, _ => (wordValue? word).map (·, rest)

end ScriptFlow.Toml
