import ScriptFlow.Number.Digits
import ScriptFlow.Number.Single

/-!
Numbers as reports write them: whole numbers with an optional plus sign, and decimals in which
either side of the point may be empty, with an optional power of ten. Infinity and not-a-number are
written as words of any case.
-/

namespace ScriptFlow

/-- A whole number of at most 64 bits: digits, with a plus sign allowed in front. -/
def wordLiteral? (cs : List Char) : Option Nat :=
  let digits := match cs with
    | '+' :: rest => rest
    | rest => rest
  match spanDigits [] digits with
  | ([], _) => none
  | (digits, []) => if ofDigits digits ≤ maxUnsigned then some (ofDigits digits) else none
  | _ => none
where
  /-- The largest 64-bit number. -/
  maxUnsigned : Nat := twoPow 64 - 1

/-- A word with its ASCII letters in lower case. -/
def lowerCase (cs : List Char) : String := String.ofList (cs.map Char.toLower)

/-- An unsigned decimal: digits, a point and digits, one side of which may be empty, and a power of
ten. -/
def decimalLiteral? (cs : List Char) : Option Decimal := do
  let (whole, rest) := spanDigits [] cs
  let (fraction, rest) := match rest with
    | '.' :: rest => spanDigits [] rest
    | rest => ([], rest)
  if whole.isEmpty ∧ fraction.isEmpty then none
  else
    match ← scanExponent rest with
    | (exponent, []) =>
      some ⟨ofDigits (whole ++ fraction), exponent.getD 0 - (fraction.length : Int)⟩
    | _ => none

/-- A single-precision number with an optional sign, rounded once. -/
def singleLiteral? (cs : List Char) : Option Single :=
  let (negative, body) := match cs with
    | '-' :: rest => (true, rest)
    | '+' :: rest => (false, rest)
    | rest => (false, rest)
  let word := lowerCase body
  if word = "inf" ∨ word = "infinity" then some (.infinity negative)
  else if word = "nan" then some .nan
  else (decimalLiteral? body).map (.ofDecimal negative)

end ScriptFlow
