import ScriptFlow.Number.Decimal

/-!
Single-precision numbers as 32-bit words: how a word is read, how an exact number is rounded to
one, their product, the comparison of numbers (which is not the comparison of words), and the ways
in which decimal text becomes one.
-/

namespace ScriptFlow

/-- A single-precision number, identified with its 32-bit word. -/
structure Single where
  /-- Sign, eight bits of exponent, twenty-three of fraction. -/
  bits : UInt32
  deriving DecidableEq

/-- The size of a single-precision number. -/
inductive Magnitude where
  /-- Not a number. -/
  | nan
  /-- Infinitely large. -/
  | infinite
  /-- The value `significand * 2 ^ exponent`. -/
  | finite (significand : Nat) (exponent : Int)
  deriving DecidableEq

namespace Single

/-- Whether the sign bit is set. -/
def negative (x : Single) : Bool := twoPow 31 ≤ x.bits.toNat

/-- The size of the number, its sign left out. -/
def magnitude (x : Single) : Magnitude :=
  let body := x.bits.toNat % twoPow 31
  let exponent : Nat := body / twoPow 23
  let fraction : Nat := body % twoPow 23
  if exponent = 255 then (if fraction = 0 then .infinite else .nan)
  else if exponent = 0 then .finite fraction (-149)
  else .finite (twoPow 23 + fraction) ((exponent : Int) - 150)

/-- The word with the given sign and the given lower thirty-one bits. -/
def ofParts (negative : Bool) (body : Nat) : Single :=
  ⟨UInt32.ofNat ((if negative then twoPow 31 else 0) + body)⟩

/-- The quiet not-a-number. -/
def nan : Single := ⟨0x7fc00000⟩

/-- Infinity of the given sign. -/
def infinity (negative : Bool) : Single := ofParts negative (255 * twoPow 23)

/-- The number of the given sign whose size was rounded; an overflow is infinity. -/
def ofRounded (negative : Bool) : Rounded → Single
  | .overflow => infinity negative
  | .finite significand exponent =>
    if significand < twoPow 23 then ofParts negative significand
    else ofParts negative ((exponent + 150).toNat * twoPow 23 + (significand - twoPow 23))

/-- The number nearest to an integer. -/
def ofInt (n : Int) : Single := ofRounded (n < 0) (BinaryFormat.binary32.round n.natAbs 1)

/-- The number nearest to a decimal of the given sign. -/
def ofDecimal (negative : Bool) (d : Decimal) : Single :=
  ofRounded negative (d.round BinaryFormat.binary32)

/-- The number nearest to a rounded double-precision number. -/
def ofDouble (negative : Bool) : Rounded → Single
  | .overflow => infinity negative
  | .finite significand exponent =>
    ofRounded negative (BinaryFormat.binary32.narrow significand exponent)

/-- Whether two words are the same number: zeros of either sign are, and a not-a-number differs
from everything. -/
def sameNumber (x y : Single) : Bool :=
  match x.magnitude, y.magnitude with
  | .nan, _ => false
  | _, .nan => false
  | .finite 0 _, .finite 0 _ => true
  | _, _ => x.bits = y.bits

/-- The product, rounded once. -/
def mul (x y : Single) : Single :=
  let negative := x.negative != y.negative
  match x.magnitude, y.magnitude with
  | .nan, _ => nan
  | _, .nan => nan
  | .infinite, .finite 0 _ => nan
  | .finite 0 _, .infinite => nan
  | .infinite, _ => infinity negative
  | _, .infinite => infinity negative
  | .finite m p, .finite n q => ofRounded negative (BinaryFormat.binary32.narrow (m * n) (p + q))

instance : Mul Single := ⟨mul⟩

/-- The fewest decimal digits that read back as the size of a finite number. -/
def digits (x : Single) (tie : Tie) : Decimal :=
  match x.magnitude with
  | .finite significand exponent => shortest BinaryFormat.binary32 tie significand exponent
  | _ => ⟨0, 0⟩

end Single

end ScriptFlow
