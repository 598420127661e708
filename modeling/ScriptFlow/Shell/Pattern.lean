/-!
Patterns: a star matches any characters, a question mark any one, brackets one of several, and all
other characters themselves. Quoted characters always match themselves.
-/

namespace ScriptFlow.Shell

/-- An element of a pattern. -/
inductive Glob where
  /-- One character. -/
  | char (c : Char)
  /-- Any one character. -/
  | one
  /-- Any characters. -/
  | many
  /-- One character in, or not in, one of several ranges. -/
  | range (inside : Bool) (ranges : List (Char × Char))

/-- The ranges between brackets, and what follows the closing one. -/
def bracketRanges? : List (Char × Bool) → Option (List (Char × Char) × List (Char × Bool))
  | [] => none
  | (']', false) :: rest => some ([], rest)
  | (first, _) :: ('-', false) :: (last, quoted) :: rest =>
    if last = ']' ∧ ¬ quoted then some ([(first, first), ('-', '-')], rest)
    else (bracketRanges? rest).map fun (ranges, rest) => ((first, last) :: ranges, rest)
  | (c, _) :: rest => (bracketRanges? rest).map fun (ranges, rest) => ((c, c) :: ranges, rest)

/-- The range that starts after an opening bracket, and what follows it; a closing bracket right at
the start stands for itself. -/
def bracket? (chars : List (Char × Bool)) : Option (Glob × List (Char × Bool)) :=
  let inside := chars.head? ≠ some ('!', false)
  let chars := if inside then chars else chars.tail
  let found : Option (List (Char × Char) × List (Char × Bool)) := match chars with
    | (']', _) :: rest =>
      (bracketRanges? rest).map fun (ranges, rest) => ((']', ']') :: ranges, rest)
    | chars => bracketRanges? chars
  found.map fun (ranges, rest) => (.range inside ranges, rest)

/-- The elements of a pattern, whose characters come with whether they are quoted; at most as many
as the first argument says. -/
def globsFrom : Nat → List (Char × Bool) → List Glob
  | 0, _ => []
  | _, [] => []
  | n + 1, (c, quoted) :: rest =>
    if quoted then .char c :: globsFrom n rest
    else if c = '*' then .many :: globsFrom n rest
    else if c = '?' then .one :: globsFrom n rest
    else if c = '[' then
      match bracket? rest with
      | some (glob, rest) => glob :: globsFrom n rest
      | none => .char c :: globsFrom n rest
    else .char c :: globsFrom n rest

/-- The elements of a pattern. -/
def globs (pattern : List (Char × Bool)) : List Glob := globsFrom pattern.length pattern

/-- A text and what remains of it after each of its characters. -/
def suffixes : List Char → List (List Char)
  | [] => [[]]
  | c :: rest => (c :: rest) :: suffixes rest

/-- The parts of a text from its start, the shortest first. -/
def beginnings : List Char → List (List Char)
  | [] => [[]]
  | c :: rest => [] :: (beginnings rest).map (c :: ·)

/-- Whether a pattern matches a text. -/
def isMatch : List Glob → List Char → Bool
  | [], text => text.isEmpty
  | .many :: rest, text => (suffixes text).any (isMatch rest)
  | .char c :: rest, text => text.head? = some c && isMatch rest text.tail
  | .one :: rest, text => text.head?.isSome && isMatch rest text.tail
  | .range inside ranges :: rest, text =>
    match text with
    | [] => false
    | c :: text =>
      (ranges.any fun (first, last) => first ≤ c ∧ c ≤ last) = inside && isMatch rest text

/-- A text without the shortest or the longest start that a pattern matches. -/
def cutStart (longest : Bool) (pattern : List Glob) (text : List Char) : List Char :=
  let starts := beginnings text
  match (if longest then starts.reverse else starts).find? (isMatch pattern) with
  | some start => text.drop start.length
  | none => text

/-- A text without the shortest or the longest end that a pattern matches. -/
def cutEnd (longest : Bool) (pattern : List Glob) (text : List Char) : List Char :=
  let ends := suffixes text
  match (if longest then ends else ends.reverse).find? (isMatch pattern) with
  | some rest => text.take (text.length - rest.length)
  | none => text

end ScriptFlow.Shell
