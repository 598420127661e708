import ScriptFlow.Number.Rounding

/-!
Decimal numbers `digits * 10 ^ exponent`, how they are rounded to a binary format, and the fewest
digits that identify a value of a binary format among its neighbours.

The fewest digits are found by their definition: on the grids of one, two, three, ... significant
digits, the value's two neighbours on the grid are tested against the interval of reals that round
to the value, and the first grid with a hit gives the answer.
-/

namespace ScriptFlow

/-- A nonnegative decimal number `digits * 10 ^ exponent`. -/
structure Decimal where
  /-- All digits, read as one number. -/
  digits : Nat
  /-- Power of ten of the last digit. -/
  exponent : Int
  deriving DecidableEq

/-- The number of decimal digits of `n`; zero has one. -/
def digitCount (n : Nat) : Nat := (Nat.toDigits 10 n).length

/-- The decimal as a ratio of naturals. -/
def Decimal.ratio (d : Decimal) : Nat × Nat :=
  match d.exponent with
  | .ofNat k => (d.digits * tenPow k, 1)
  | .negSucc k => (d.digits, tenPow (k + 1))

/-- The power of ten just above the decimal: it is below `10 ^ magnitude`. -/
def Decimal.magnitude (d : Decimal) : Int := d.exponent + digitCount d.digits

/-- The value of `format` nearest to a decimal. Magnitudes that lie beyond every format are
settled without forming the power of ten. -/
def Decimal.round (d : Decimal) (format : BinaryFormat) : Rounded :=
  if d.digits = 0 then .finite 0 format.lowest
  else if 400 < d.magnitude then .overflow
  else if d.magnitude < -400 then .finite 0 format.lowest
  else
    let (n, m) := d.ratio
    format.round n m

/-- The decimal without trailing zeros; `fuel` bounds the number of zeros removed. -/
def Decimal.trim (d : Decimal) : Nat → Decimal
  | 0 => d
  | fuel + 1 =>
    if d.digits ≠ 0 ∧ d.digits % 10 = 0 then
      Decimal.trim ⟨d.digits / 10, d.exponent + 1⟩ fuel
    else d

/-- Which of two equally near decimals is taken. -/
inductive Tie where
  /-- The larger one. -/
  | up
  /-- The one whose last digit is even. -/
  | even
  deriving DecidableEq

/-- The reals that round to one value of a binary format, in quarters of the value's unit:
everything from `centre - below` to `centre + above`, the ends included when `closed`. -/
structure RoundingInterval where
  /-- The value itself. -/
  centre : Nat
  /-- Distance to the lower end; half as long next to a power of two. -/
  below : Nat
  /-- Distance to the upper end. -/
  above : Nat
  /-- Whether the ends belong to the interval: the value has an even significand. -/
  closed : Bool
  /-- Exponent of the quarter unit. -/
  exponent : Int

/-- The interval around `significand * 2 ^ exponent`. -/
def RoundingInterval.of (format : BinaryFormat) (significand : Nat) (exponent : Int) :
    RoundingInterval where
  centre := 4 * significand
  below := if significand = twoPow (format.precision - 1) ∧ format.lowest < exponent then 1 else 2
  above := 2
  closed := significand % 2 = 0
  exponent := exponent - 2

/-- Whether the multiple `count` of `step / unit` lies in the interval, where the interval's
numbers are multiples of `1 / unit` scaled by `scale`. -/
def RoundingInterval.holds (i : RoundingInterval) (scale step count : Nat) : Bool :=
  let point := count * step
  let low := (i.centre - i.below) * scale
  let high := (i.centre + i.above) * scale
  if i.closed then low ≤ point ∧ point ≤ high else low < point ∧ point < high

/-- The decimal with unit `10 ^ place` nearest to the value, if one lies in the interval. -/
def RoundingInterval.onGrid (i : RoundingInterval) (tie : Tie) (place : Int) : Option Decimal :=
  let scale := (if 0 ≤ i.exponent then twoPow i.exponent.toNat else 1) *
    (if place < 0 then tenPow (-place).toNat else 1)
  let step := (if 0 ≤ place then tenPow place.toNat else 1) *
    (if i.exponent < 0 then twoPow (-i.exponent).toNat else 1)
  let value := i.centre * scale
  let lower := value / step
  let upper := lower + 1
  let nearer :=
    if value - lower * step < upper * step - value then lower
    else if upper * step - value < value - lower * step then upper
    else match tie with
      | .up => upper
      | .even => if lower % 2 = 0 then lower else upper
  match i.holds scale step lower, i.holds scale step upper with
  | true, true => some ⟨nearer, place⟩
  | true, false => some ⟨lower, place⟩
  | false, true => some ⟨upper, place⟩
  | false, false => none

/-- The first grid from `place` downwards that has a point in the interval. -/
def RoundingInterval.search (i : RoundingInterval) (tie : Tie) (place : Int) : Nat → Decimal
  | 0 => ⟨0, 0⟩
  | fuel + 1 =>
    match i.onGrid tie place with
    | some d => d
    | none => i.search tie (place - 1) fuel

/-- The power of ten of the leading digit of the positive ratio `n / d`. Below one it is `-t` for
the least `t` with `d ≤ 10 ^ t * n`, that is, with `(d - 1) / n < 10 ^ t`. -/
def leadingPlace (n d : Nat) : Int :=
  if d ≤ n then (digitCount (n / d) : Int) - 1 else -(digitCount ((d - 1) / n) : Int)

/-- The fewest decimal digits that round to `significand * 2 ^ exponent`, the nearest of those,
and of two equally near ones as `tie` says. Seventeen digits suffice for every format. -/
def shortest (format : BinaryFormat) (tie : Tie) (significand : Nat) (exponent : Int) : Decimal :=
  if significand = 0 then ⟨0, 0⟩
  else
    let (n, d) := scaleDown significand 1 (-exponent)
    let found := (RoundingInterval.of format significand exponent).search tie (leadingPlace n d) 20
    found.trim (digitCount found.digits)

end ScriptFlow
