import ScriptFlow.Number.Single

/-!
Decimal numerals: the text of whole numbers, and the two ways in which a single-precision number
is written. Labels and listings write all digits positionally; data files write numbers of
moderate size positionally with at least one decimal, all others with an exponent. The digits are
the fewest that read back in both cases.
-/

namespace ScriptFlow

/-- A whole number in decimal. -/
def natText (n : Nat) : String := String.ofList (Nat.toDigits 10 n)

/-- A signed whole number in decimal. -/
def intText : Int → String
  | .ofNat n => natText n
  | .negSucc n => "-" ++ natText (n + 1)

/-- The text of `n` with zeros in front up to `width` characters. -/
def padded (width n : Nat) : String :=
  let text := Nat.toDigits 10 n
  String.ofList (List.replicate (width - text.length) '0' ++ text)

/-- The digits before and after the decimal point of a positionally written decimal; there is
always one before it. -/
def Decimal.positional (d : Decimal) : List Char × List Char :=
  let text := Nat.toDigits 10 d.digits
  match d.exponent with
  | .ofNat k => (text ++ List.replicate k '0', [])
  | .negSucc k =>
    let places := k + 1
    let padding := List.replicate (places + 1 - text.length) '0' ++ text
    (padding.take (padding.length - places), padding.drop (padding.length - places))

/-- Zero has no place value to keep: its digits are written with exponent zero. -/
def Decimal.normal (d : Decimal) : Decimal := if d.digits = 0 then ⟨0, 0⟩ else d

/-- A number as labels and listings show it: every digit is written out, a whole number has no
point, and of two equally near digit sequences the larger is taken. -/
def Single.text (x : Single) : String :=
  match x.magnitude with
  | .nan => "NaN"
  | .infinite => if x.negative then "-inf" else "inf"
  | .finite .. =>
    let (whole, decimals) := (x.digits .up).normal.positional
    let sign := if x.negative then ['-'] else []
    let point := if decimals.isEmpty then [] else '.' :: decimals
    String.ofList (sign ++ whole ++ point)

end ScriptFlow
