/-!
Sets of characters given by ranges of code points.
-/

namespace ScriptFlow

/-- Whether one of the ranges, each given by its first and its last code point, holds a character.
-/
def inRanges (ranges : List (Nat × Nat)) (c : Char) : Bool :=
  ranges.any fun (first, last) => first ≤ c.toNat ∧ c.toNat ≤ last

end ScriptFlow
