import ScriptFlow.Number.Digits
import ScriptFlow.Number.Numeral
import ScriptFlow.Number.Scaling

/-!
JSON documents as they are written. A string is kept with its escapes and a number with its
digits, because what a string or a number means is decided by whoever reads the value: an integer
field refuses `1.0`, a field that is skipped accepts any well-formed token, and the members of an
object keep their order and may repeat.
-/

namespace ScriptFlow

/-- A JSON number as written. -/
structure Numeral where
  /-- Whether a minus sign stands in front. -/
  negative : Bool
  /-- The digits before the point. -/
  whole : Nat
  /-- The digits after the point; none when there is no point. -/
  fraction : List (Fin 10)
  /-- The power of ten after `e`, if one is written. -/
  exponent : Option Int
  deriving DecidableEq

/-- A JSON document. -/
inductive Json where
  /-- The word `null`. -/
  | null
  /-- The words `true` and `false`. -/
  | bool (value : Bool)
  /-- A number. -/
  | number (value : Numeral)
  /-- A string: the characters between its quotes, escapes left as written. -/
  | string (raw : List Char)
  /-- An array. -/
  | array (items : List Json)
  /-- An object: its members in order, each key as a string is kept. -/
  | object (members : List (List Char × Json))

/-- The text of a number. -/
def Numeral.chars (n : Numeral) : List Char :=
  let sign := if n.negative then ['-'] else []
  let point := if n.fraction.isEmpty then [] else '.' :: n.fraction.map digitChar
  let power := match n.exponent with
    | none => []
    | some (.ofNat k) => 'e' :: '+' :: Nat.toDigits 10 k
    | some (.negSucc k) => 'e' :: '-' :: Nat.toDigits 10 (k + 1)
  sign ++ Nat.toDigits 10 n.whole ++ point ++ power

/-- A whole number as a JSON number. -/
def Numeral.ofInt (n : Int) : Numeral := ⟨n < 0, n.natAbs, [], none⟩

/-- A JSON number that is a whole number in form: it has neither point nor power, and is not
`-0`. -/
def Numeral.toInt? (n : Numeral) : Option Int :=
  if n.fraction.isEmpty ∧ n.exponent = none ∧ ¬ (n.negative ∧ n.whole = 0) then
    some (if n.negative then -(n.whole : Int) else n.whole)
  else none

/-- A whole number in form that fits a 64-bit word, with or without a sign. -/
def Numeral.word? (n : Numeral) : Option Int :=
  match n.toInt? with
  | some k => if -twoPow 63 ≤ k ∧ k < twoPow 64 then some k else none
  | none => none

/-- The size of a JSON number in double precision, or nothing when it is out of range. -/
def Numeral.double? (n : Numeral) : Option Rounded :=
  readDouble (natDigits n.whole) n.fraction (n.exponent.getD 0)

/-- The single-precision number nearest to a JSON number read in double precision. What only single
precision cannot hold is infinite. -/
def Numeral.viaDouble? (n : Numeral) : Option Single := n.double?.map (.ofDouble n.negative)

end ScriptFlow
