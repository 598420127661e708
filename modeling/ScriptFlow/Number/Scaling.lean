import ScriptFlow.Number.Single

/-!
Reading a decimal into double precision in two roundings: the digits that fit a 64-bit word are
rounded first, and the result is then multiplied or divided by the rounded power of ten. Data
files are read this way. The result is within a unit of the nearest double, and a number too large
for the format is refused instead of becoming infinite.
-/

namespace ScriptFlow

/-- The largest 64-bit word. -/
def maxWord : Nat := twoPow 64 - 1

/-- The product of two finite numbers, rounded. -/
def BinaryFormat.mul (format : BinaryFormat) : Rounded → Rounded → Rounded
  | .finite m p, .finite n q => format.narrow (m * n) (p + q)
  | _, _ => .overflow

/-- The quotient of two finite numbers, rounded. -/
def BinaryFormat.div (format : BinaryFormat) : Rounded → Rounded → Rounded
  | .finite m p, .finite n q =>
    let (top, bottom) := scaleDown m n (q - p)
    format.round top bottom
  | _, _ => .overflow

/-- The double nearest to a power of ten. -/
def tenPower (k : Nat) : Rounded := BinaryFormat.binary64.round (tenPow k) 1

/-- The largest power of ten that is a finite double. -/
def maxTenPower : Nat := 308

/-- A value multiplied by a power of ten. Far below the range, the power is divided away in steps;
each step is one round of `fuel`, and after three of them every 64-bit significand is zero. -/
def scaleByTen (value : Rounded) (exponent : Int) : Nat → Option Rounded
  | 0 => some (.finite 0 BinaryFormat.binary64.lowest)
  | fuel + 1 =>
    if exponent.natAbs ≤ maxTenPower then
      if 0 ≤ exponent then
        match BinaryFormat.binary64.mul value (tenPower exponent.natAbs) with
        | .overflow => none
        | product => some product
      else some (BinaryFormat.binary64.div value (tenPower exponent.natAbs))
    else
      match value with
      | .finite 0 _ => some value
      | _ =>
        if 0 ≤ exponent then none
        else
          scaleByTen (BinaryFormat.binary64.div value (tenPower maxTenPower))
            (exponent + maxTenPower) fuel

/-- The digits of a numeral gathered into one word, with the power of ten of the last digit
gathered. -/
structure Significand where
  /-- The digits gathered so far. -/
  word : Nat
  /-- The power of ten of the last digit gathered. -/
  exponent : Int

/-- Gathers digits before the point. Once one does not fit, it and all later ones only raise the
power of ten. -/
def Significand.gatherWhole (s : Significand) (full : Bool) : List (Fin 10) → Significand
  | [] => s
  | digit :: rest =>
    let next := s.word * 10 + digit.val
    if full || decide (maxWord < next) then
      Significand.gatherWhole ⟨s.word, s.exponent + 1⟩ true rest
    else Significand.gatherWhole ⟨next, s.exponent⟩ false rest

/-- Gathers digits after the point, up to the first that does not fit. -/
def Significand.gatherFraction (s : Significand) : List (Fin 10) → Significand
  | [] => s
  | digit :: rest =>
    let next := s.word * 10 + digit.val
    if maxWord < next then s
    else Significand.gatherFraction ⟨next, s.exponent - 1⟩ rest

/-- The double read from the digits before and after the point and a power of ten, or nothing when
it is out of range. -/
def readDouble (whole fraction : List (Fin 10)) (exponent : Int) : Option Rounded :=
  let s := (Significand.gatherWhole ⟨0, 0⟩ false whole).gatherFraction fraction
  scaleByTen (BinaryFormat.binary64.round s.word 1) (s.exponent + exponent) 4

end ScriptFlow
