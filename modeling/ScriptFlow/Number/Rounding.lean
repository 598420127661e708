/-!
Rounding of an exact ratio to a binary floating-point format. The formats differ only in the
width of the significand and in the range of the exponent, so one function serves all of them: it
scales the ratio until the significand has the wanted width, rounds the quotient to the nearest
integer with halves going to the even neighbour, and reports an overflow when the exponent leaves
the range.
-/

namespace ScriptFlow

/-- A power of two. -/
def twoPow (k : Nat) : Nat := Nat.pow 2 k

/-- A power of ten. -/
def tenPow (k : Nat) : Nat := Nat.pow 10 k

/-- The quotient of `n` by `d` rounded to the nearest integer; a half goes to the even neighbour. -/
def roundDivEven (n d : Nat) : Nat :=
  let quotient := n / d
  let twice := 2 * (n % d)
  if twice < d then quotient
  else if d < twice then quotient + 1
  else if quotient % 2 = 0 then quotient
  else quotient + 1

/-- The ratio `n / d` divided by `2 ^ e`, as a ratio of naturals. -/
def scaleDown (n d : Nat) (e : Int) : Nat × Nat :=
  match e with
  | .ofNat k => (n, d * twoPow k)
  | .negSucc k => (n * twoPow (k + 1), d)

/-- The greatest `e` with `2 ^ e ≤ n / d`, for positive `n` and `d`. The difference of the two
bit lengths is either that exponent or one above it. -/
def floorLog2 (n d : Nat) : Int :=
  let guess : Int := (n.log2 : Int) - (d.log2 : Int)
  let (top, bottom) := scaleDown n d guess
  if bottom ≤ top then guess else guess - 1

/-- A binary floating-point format: the values `m * 2 ^ q` with `m < 2 ^ precision` and
`lowest ≤ q ≤ highest`. -/
structure BinaryFormat where
  /-- Number of bits of the significand. -/
  precision : Nat
  /-- Exponent of the smallest positive value. -/
  lowest : Int
  /-- Exponent of the unit of the largest values. -/
  highest : Int

/-- The 32-bit format. -/
def BinaryFormat.binary32 : BinaryFormat := ⟨24, -149, 104⟩

/-- The 64-bit format. -/
def BinaryFormat.binary64 : BinaryFormat := ⟨53, -1074, 971⟩

/-- The outcome of rounding a nonnegative ratio. -/
inductive Rounded where
  /-- The value `significand * 2 ^ exponent`. -/
  | finite (significand : Nat) (exponent : Int)
  /-- The ratio lies beyond the largest value of the format. -/
  | overflow
  deriving DecidableEq

/-- A rounded significand with its exponent, if the exponent is still in range. -/
def BinaryFormat.settle (format : BinaryFormat) (significand : Nat) (exponent : Int) : Rounded :=
  if format.highest < exponent then .overflow else .finite significand exponent

/-- The value of the format nearest to `n / d`, halves going to the even significand. A
significand that rounds up to the next power of two is written with the next exponent. -/
def BinaryFormat.round (format : BinaryFormat) (n d : Nat) : Rounded :=
  if n = 0 then .finite 0 format.lowest
  else
    let exponent := max (floorLog2 n d - ((format.precision : Int) - 1)) format.lowest
    let (top, bottom) := scaleDown n d exponent
    let significand := roundDivEven top bottom
    if significand = twoPow format.precision then
      format.settle (twoPow (format.precision - 1)) (exponent + 1)
    else format.settle significand exponent

/-- The value nearest to `significand * 2 ^ exponent`, as when a wider format is narrowed. -/
def BinaryFormat.narrow (format : BinaryFormat) (significand : Nat) (exponent : Int) : Rounded :=
  match exponent with
  | .ofNat k => format.round (significand * twoPow k) 1
  | .negSucc k => format.round significand (twoPow (k + 1))

end ScriptFlow
