import ScriptFlow.Number.Rounding
import ScriptFlow.Shell.Word

/-!
Expressions over signed words of 64 bits. Names stand for the numbers in variables.
-/

namespace ScriptFlow.Shell

/-- A number as a signed word. -/
def wrap (n : Int) : Int := n.bmod 18446744073709551616

/-- The value of a digit in any base up to sixteen. -/
def digitValue? (c : Char) : Option Nat :=
  if '0' ≤ c ∧ c ≤ '9' then some (c.toNat - '0'.toNat)
  else if 'a' ≤ c ∧ c ≤ 'f' then some (c.toNat - 'a'.toNat + 10)
  else if 'A' ≤ c ∧ c ≤ 'F' then some (c.toNat - 'A'.toNat + 10)
  else none

/-- The number that digits form in a base. -/
def digitsValue? (base : Nat) : List Char → Option Nat
  | [] => none
  | digits =>
    digits.foldl (fun total c => do
      let total ← total
      let digit ← digitValue? c
      if digit < base then return total * base + digit else none) (some 0)

/-- The number without a sign that characters form: decimal, or octal after a zero, or hexadecimal
after a zero and an x. -/
def unsigned? : List Char → Option Nat
  | '0' :: 'x' :: digits | '0' :: 'X' :: digits => digitsValue? 16 digits
  | ['0'] => some 0
  | '0' :: digits => digitsValue? 8 digits
  | digits => digitsValue? 10 digits

/-- The number that characters form. -/
def integer? : List Char → Option Int
  | '-' :: digits => (unsigned? digits).map fun n => wrap (-(n : Int))
  | '+' :: digits => (unsigned? digits).map fun n => wrap n
  | digits => (unsigned? digits).map fun n => wrap n

/-- Characters without the blanks at both ends. -/
def trimBlanks (chars : List Char) : List Char :=
  let isBlankChar (c : Char) : Bool := c = ' ' || c = '\t' || c = '\n'
  ((chars.dropWhile isBlankChar).reverse.dropWhile isBlankChar).reverse

/-- The operators between two expressions, those of two characters first, and how tightly they
bind. -/
def operators : List (List Char × Nat) :=
  [(['|', '|'], 1), (['&', '&'], 2), (['=', '='], 6), (['!', '='], 6), (['<', '='], 7),
    (['>', '='], 7), (['<', '<'], 8), (['>', '>'], 8), (['|'], 3), (['^'], 4), (['&'], 5),
    (['<'], 7), (['>'], 7), (['+'], 9), (['-'], 9), (['*'], 10), (['/'], 10), (['%'], 10)]

/-- The operator at the start of characters, how tightly it binds, and what follows it. -/
def operator? (chars : List Char) : Option (List Char × Nat × List Char) :=
  (operators.find? fun (name, _) => name.isPrefixOf chars).map fun (name, strength) =>
    (name, strength, chars.drop name.length)

/-- The truth of a condition as a number. -/
def truth (condition : Bool) : Int := if condition then 1 else 0

/-- The value of an operator; there is none for a division by zero. -/
def operate? (name : List Char) (x y : Int) : Option Int :=
  match String.ofList name with
  | "||" => some (truth (x ≠ 0 || y ≠ 0))
  | "&&" => some (truth (x ≠ 0 && y ≠ 0))
  | "==" => some (truth (x = y))
  | "!=" => some (truth (x ≠ y))
  | "<=" => some (truth (x ≤ y))
  | ">=" => some (truth (y ≤ x))
  | "<" => some (truth (x < y))
  | ">" => some (truth (y < x))
  | "<<" => some (wrap (x * (twoPow (y % 64).toNat : Int)))
  | ">>" => some (x / (twoPow (y % 64).toNat : Int))
  | "|" => some ((BitVec.ofInt 64 x ||| BitVec.ofInt 64 y).toInt)
  | "^" => some ((BitVec.ofInt 64 x ^^^ BitVec.ofInt 64 y).toInt)
  | "&" => some ((BitVec.ofInt 64 x &&& BitVec.ofInt 64 y).toInt)
  | "+" => some (wrap (x + y))
  | "-" => some (wrap (x - y))
  | "*" => some (wrap (x * y))
  | "/" => if y = 0 then none else some (wrap (x.tdiv y))
  | "%" => if y = 0 then none else some (wrap (x.tmod y))
  | _ => none

mutual

/-- The value of the expression at the start of characters whose operators bind at least as tightly
as `strength` says, and what follows it; `levels` bounds the depth. -/
def expression? (look : List Char → Option Int) (levels strength : Nat) (chars : List Char) :
    Option (Int × List Char) :=
  match levels with
  | 0 => none
  | levels + 1 => do
    let (x, rest) ← operand? look levels (trimBlanks chars)
    operations? look levels strength x rest

/-- The value of the operand at the start of characters, and what follows it. -/
def operand? (look : List Char → Option Int) (levels : Nat) (chars : List Char) :
    Option (Int × List Char) :=
  match levels with
  | 0 => none
  | levels + 1 =>
    match chars with
    | [] => none
    | c :: rest =>
      let rest := trimBlanks rest
      if c = '-' then (operand? look levels rest).map fun (x, rest) => (wrap (-x), rest)
      else if c = '+' then operand? look levels rest
      else if c = '!' then (operand? look levels rest).map fun (x, rest) => (truth (x = 0), rest)
      else if c = '~' then (operand? look levels rest).map fun (x, rest) => (-x - 1, rest)
      else if c = '(' then
        match expression? look levels 0 rest with
        | some (x, ')' :: rest) => some (x, trimBlanks rest)
        | _ => none
      else if isNameChar c then
        let name := chars.takeWhile isNameChar
        let value := if c.isDigit then integer? name else look name
        value.map (·, trimBlanks (chars.drop name.length))
      else none

/-- The value of the operators that follow a value, and what follows them. -/
def operations? (look : List Char → Option Int) (levels strength : Nat) (x : Int)
    (chars : List Char) : Option (Int × List Char) :=
  match levels with
  | 0 => none
  | levels + 1 =>
    match chars, operator? chars with
    | '?' :: rest, _ =>
      if strength = 0 then
        match expression? look levels 0 rest with
        | some (y, ':' :: rest) => do
          let (z, rest) ← expression? look levels 0 rest
          return (if x ≠ 0 then y else z, rest)
        | _ => none
      else some (x, chars)
    | _, some (name, binding, rest) =>
      if strength ≤ binding then do
        let (y, rest) ← expression? look levels (binding + 1) rest
        let z ← operate? name x y
        operations? look levels strength z rest
      else some (x, chars)
    | _, none => some (x, chars)

end

/-- The value of an expression; an empty one is zero. -/
def evaluate? (look : List Char → Option Int) (chars : List Char) : Option Int :=
  match trimBlanks chars with
  | [] => some 0
  | chars =>
    match expression? look (3 * chars.length + 3) 0 chars with
    | some (x, []) => some x
    | _ => none

end ScriptFlow.Shell
