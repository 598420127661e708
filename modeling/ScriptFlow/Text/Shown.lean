import ScriptFlow.Text.Attaching
import ScriptFlow.Text.Range
import ScriptFlow.Text.Unassigned

/-!
Texts quoted for a reader, so that every character can be told apart. Quotes and backslashes get a
backslash; line breaks, tabs and the zero character have letters; characters that cannot be seen, or
that attach to the one before, are written by their code point.
-/

namespace ScriptFlow

/-- Ranges of code points that are assigned and show nothing of their own: controls, format
characters, blanks other than the space, private use and the fillers of Hangul. -/
def unseenRanges : List (Nat × Nat) :=
  [(0x0, 0x1F), (0x7F, 0xA0), (0xAD, 0xAD), (0x600, 0x605), (0x61C, 0x61C), (0x6DD, 0x6DD),
    (0x70F, 0x70F), (0x890, 0x891), (0x8E2, 0x8E2), (0x115F, 0x1160), (0x1680, 0x1680),
    (0x180E, 0x180E), (0x2000, 0x200B), (0x200D, 0x200F), (0x2028, 0x202F), (0x205F, 0x2064),
    (0x2066, 0x206F), (0x3000, 0x3000), (0x3164, 0x3164), (0xE000, 0xF8FF), (0xFEFF, 0xFEFF),
    (0xFFA0, 0xFFA0), (0xFFF9, 0xFFFB), (0x110BD, 0x110BD), (0x110CD, 0x110CD),
    (0x13430, 0x1343F), (0x1BCA0, 0x1BCA3), (0x1D173, 0x1D17A), (0xE0001, 0xE0001),
    (0xF0000, 0xFFFFD), (0x100000, 0x10FFFD)]

/-- Whether a character attaches to the one before it. -/
def isAttaching (c : Char) : Bool := inRanges attachingBasic c || inRanges attachingBeyond c

/-- Whether a code point is that of no character. -/
def isUnassigned (c : Char) : Bool :=
  inRanges unassignedAlphabets c || inRanges unassignedBasic c || inRanges unassignedAncient c ||
    inRanges unassignedBeyond c

/-- Whether a character can be told apart in a line of text. -/
def isShowable (c : Char) : Bool :=
  ! inRanges unseenRanges c && ! isAttaching c && ! isUnassigned c

/-- One character inside the quotes. -/
def shownChar (c : Char) : List Char :=
  if c = '"' ∨ c = '\\' then ['\\', c]
  else if c = '\n' then ['\\', 'n']
  else if c = '\r' then ['\\', 'r']
  else if c = '\t' then ['\\', 't']
  else if c.toNat = 0 then ['\\', '0']
  else if isShowable c then [c]
  else ['\\', 'u', '\x7b'] ++ Nat.toDigits 16 c.toNat ++ ['\x7d']

/-- A text in quotes. -/
def shown (text : String) : String :=
  "\"" ++ String.ofList (text.toList.flatMap shownChar) ++ "\""

/-- A list of texts in quotes. -/
def shownList (texts : List String) : String :=
  "[" ++ ", ".intercalate (texts.map shown) ++ "]"

end ScriptFlow
