/-!
Decimal digits: the digits of a whole number, the whole number with given digits, and the digits
and the power of ten at the front of a text.
-/

namespace ScriptFlow

/-- The digit that a character stands for. -/
def digitOf? (c : Char) : Option (Fin 10) :=
  if bounds : '0'.toNat ≤ c.toNat ∧ c.toNat < '0'.toNat + 10 then
    some ⟨c.toNat - '0'.toNat, by omega⟩
  else none

/-- The digit zero. -/
def zeroDigit : Fin 10 := ⟨0, by decide⟩

/-- The character of a digit. -/
def digitChar (d : Fin 10) : Char := Nat.digitChar d.val

/-- The digits of a whole number. -/
def natDigits (n : Nat) : List (Fin 10) := (Nat.toDigits 10 n).filterMap digitOf?

/-- The whole number with the given digits. -/
def ofDigits (digits : List (Fin 10)) : Nat := digits.foldl (fun n d => n * 10 + d.val) 0

/-- The digits that a text starts with, after those already read, which come in reverse, and what
follows. -/
def spanDigits (read : List (Fin 10)) : List Char → List (Fin 10) × List Char
  | [] => (read.reverse, [])
  | c :: rest =>
    match digitOf? c with
    | some d => spanDigits (d :: read) rest
    | none => (read.reverse, c :: rest)

/-- The power of ten after `e` or `E`; it has at least one digit. -/
def scanExponent : List Char → Option (Option Int × List Char)
  | [] => some (none, [])
  | c :: rest =>
    if c = 'e' ∨ c = 'E' then
      let (negative, rest) := match rest with
        | '+' :: rest => (false, rest)
        | '-' :: rest => (true, rest)
        | rest => (false, rest)
      match spanDigits [] rest with
      | ([], _) => none
      | (digits, rest) =>
        let power : Int := ofDigits digits
        some (some (if negative then -power else power), rest)
    else some (none, c :: rest)

end ScriptFlow
