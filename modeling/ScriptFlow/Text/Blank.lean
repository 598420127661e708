import ScriptFlow.Text.Range

/-!
Blank characters, as the Unicode property `White_Space` lists them, and the cutting of a text into
lines and of a line into fields.
-/

namespace ScriptFlow

/-- The ranges of code points with the property `White_Space`. -/
def blankRanges : List (Nat × Nat) :=
  [(0x09, 0x0D), (0x20, 0x20), (0x85, 0x85), (0xA0, 0xA0), (0x1680, 0x1680), (0x2000, 0x200A),
    (0x2028, 0x2029), (0x202F, 0x202F), (0x205F, 0x205F), (0x3000, 0x3000)]

/-- Whether a character is blank. -/
def isBlank (c : Char) : Bool := inRanges blankRanges c

/-- The pieces of a text between the characters for which `cut` holds; the piece in progress comes
in reverse. -/
def piecesOnto (cut : Char → Bool) (piece : List Char) : List Char → List (List Char)
  | [] => [piece.reverse]
  | c :: rest =>
    if cut c then piece.reverse :: piecesOnto cut [] rest else piecesOnto cut (c :: piece) rest

/-- The pieces of a text between the characters for which `cut` holds. -/
def pieces (cut : Char → Bool) (text : List Char) : List (List Char) := piecesOnto cut [] text

/-- A line without the carriage return at its end. -/
def dropReturn (line : List Char) : List Char :=
  match line.reverse with
  | '\r' :: rest => rest.reverse
  | _ => line

/-- The lines of a text. A line ends with a line feed, before which a carriage return may stand;
the last line need not end. -/
def linesOf (text : List Char) : List (List Char) :=
  match (pieces (· = '\n') text).reverse with
  | [] => []
  | last :: complete =>
    (complete.map dropReturn).reverse ++ (if last.isEmpty then [] else [last])

/-- The fields of a line: its pieces between blanks, empty ones left out. -/
def fieldsOf (line : List Char) : List (List Char) :=
  (pieces isBlank line).filter (! ·.isEmpty)

end ScriptFlow
