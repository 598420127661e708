/-!
The length of a text in sixteen-bit code units.
-/

namespace ScriptFlow

/-- The number of sixteen-bit units of a character: two beyond the basic plane. -/
def charUnits16 (c : Char) : Nat := if c.toNat < 0x10000 then 1 else 2

/-- The number of sixteen-bit units of a text. -/
def units16 (text : String) : Nat :=
  text.toList.foldl (fun count c => count + charUnits16 c) 0

end ScriptFlow
