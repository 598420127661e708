import ScriptFlow.Number.Numeral

/-!
The text of a time span: in seconds from one second on, with as many decimals as it takes, and in
milliseconds below.
-/

namespace ScriptFlow

/-- Decimals without the zeros at their end. -/
def trimZeros (decimals : List Char) : List Char :=
  (decimals.reverse.dropWhile (· = '0')).reverse

/-- The text of a time span given in milliseconds. -/
def durationText (milliseconds : Nat) : String :=
  if milliseconds = 0 then "0ns"
  else if milliseconds < 1000 then natText milliseconds ++ "ms"
  else
    let decimals := trimZeros (padded 3 (milliseconds % 1000)).toList
    natText (milliseconds / 1000) ++
      (if decimals.isEmpty then "" else "." ++ String.ofList decimals) ++ "s"

end ScriptFlow
