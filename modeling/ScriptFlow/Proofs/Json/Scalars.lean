import ScriptFlow.Json.Reader
import ScriptFlow.Proofs.Number.Digits

/-! Strings and numbers of documents read back. A text is escaped character by character, and what
is written for a character is read as that character wherever it stands; so a written text ends at
its own quote and stands for itself. A number is written as it is kept, and read up to the first
character that cannot continue it. -/
namespace ScriptFlow

namespace Quoted

/-! ### Strings -/

/-- The characters that are escaped by a letter, with their letters. -/
def letters : List (Char × Char) :=
  [('"', '"'), ('\\', '\\'), (Char.ofNat 8, 'b'), (Char.ofNat 12, 'f'), ('\n', 'n'), ('\r', 'r'),
    ('\t', 't')]

private theorem escapeChar_letter : ∀ p ∈ letters,
    escapeChar p.1 = ['\\', p.2] ∧ shortEscape? p.2 = some p.1 ∧ p.2 ≠ 'u' := by
  decide

/-- A character is escaped by a letter or by its number, or it stands for itself. -/
theorem escapeChar_cases (c : Char) :
    (∃ letter, escapeChar c = ['\\', letter] ∧ shortEscape? letter = some c ∧ letter ≠ 'u') ∨
      (c.toNat < 32 ∧
        escapeChar c = ['\\', 'u', '0', '0', hexChar (c.toNat / 16), hexChar (c.toNat % 16)]) ∨
      (escapeChar c = [c] ∧ c ≠ '"' ∧ c ≠ '\\' ∧ ¬ c.toNat < 32) := by
  by_cases named : c ∈ letters.map (·.1)
  · obtain ⟨p, member, rfl⟩ := List.mem_map.mp named
    exact .inl ⟨p.2, escapeChar_letter p member⟩
  · simp only [letters, List.map_cons, List.map_nil, List.mem_cons, List.not_mem_nil, or_false,
      not_or] at named
    obtain ⟨notQuote, notBackslash, other⟩ := named
    by_cases control : c.toNat < 32
    · exact .inr (.inl ⟨control, by simp [escapeChar, notQuote, notBackslash, other, control]⟩)
    · refine .inr (.inr ⟨?_, notQuote, notBackslash, control⟩)
      simp [escapeChar, notQuote, notBackslash, other, control]

/-- A control character is written with its number. -/
theorem hexUnit?_control {n : Nat} (control : n < 32) :
    hexUnit? '0' '0' (hexChar (n / 16)) (hexChar (n % 16)) = some n := by
  have each : ∀ m < 32, hexUnit? '0' '0' (hexChar (m / 16)) (hexChar (m % 16)) = some m := by
    decide
  exact each n control

/-- What is written for a character is read as the character. -/
private theorem unescapeOnto_escapeChar (read : List Char) (c : Char) (rest : List Char) :
    unescapeOnto read (escapeChar c ++ rest) = unescapeOnto (c :: read) rest := by
  rcases escapeChar_cases c with ⟨letter, written, named, notNumber⟩ | ⟨control, written⟩ |
    ⟨written, _, notBackslash, _⟩
  · rw [written]
    simp [unescapeOnto, named, notNumber]
  · have high : isHighSurrogate c.toNat = false := by
      simp only [isHighSurrogate, decide_eq_false_iff_not]
      omega
    have low : isLowSurrogate c.toNat = false := by
      simp only [isLowSurrogate, decide_eq_false_iff_not]
      omega
    rw [written]
    simp [unescapeOnto, hexUnit?_control control, high, low]
  · rw [written]
    simp [unescapeOnto, notBackslash]

/-- An escaped text stands for the text. -/
@[simp] theorem unescape_escape (text : String) : unescape (escape text) = some text := by
  have onto (read : List Char) : unescapeOnto read (text.toList.flatMap escapeChar) =
      some (read.reverse ++ text.toList) := by
    induction text.toList generalizing read with
    | nil => simp [unescapeOnto]
    | cons c rest ih => rw [List.flatMap_cons, unescapeOnto_escapeChar, ih]; simp
  simp [unescape, escape, onto]

end Quoted

namespace Json

private theorem scanString_escapeChar (read : List Char) (c : Char) (rest : List Char) :
    scanString read (Quoted.escapeChar c ++ rest) =
      scanString ((Quoted.escapeChar c).reverse ++ read) rest := by
  rcases Quoted.escapeChar_cases c with ⟨letter, written, named, notNumber⟩ | ⟨control, written⟩ |
    ⟨written, _, notBackslash, notControl⟩
  · rw [written]
    simp [scanString, named, notNumber]
  · rw [written]
    simp [scanString, Quoted.hexUnit?_control control]
  · rw [written]
    simp [scanString, notBackslash, notControl]

/-- A written text is read up to the quote that ends it. -/
theorem scanString_escape (text : String) (rest : List Char) :
    scanString [] (Quoted.escape text ++ '"' :: rest) = some (Quoted.escape text, rest) := by
  have onto (read : List Char) :
      scanString read (text.toList.flatMap Quoted.escapeChar ++ '"' :: rest) =
        some (read.reverse ++ text.toList.flatMap Quoted.escapeChar, rest) := by
    induction text.toList generalizing read with
    | nil => simp [scanString]
    | cons c text ih =>
      rw [List.flatMap_cons, List.append_assoc, scanString_escapeChar, ih]
      simp
  simpa [Quoted.escape] using onto []

/-! ### Numbers -/

/-- Whether a text starts with a character that can continue a number. -/
def continuesNumber : List Char → Bool
  | [] => false
  | c :: _ => (digitOf? c).isSome ∨ c = '.' ∨ c = 'e' ∨ c = 'E'

/-- The text of the digits after the point. -/
def pointChars (fraction : List (Fin 10)) : List Char :=
  if fraction.isEmpty then [] else '.' :: fraction.map digitChar

/-- The text of a power of ten. -/
def powerChars : Option Int → List Char
  | none => []
  | some (.ofNat k) => 'e' :: '+' :: Nat.toDigits 10 k
  | some (.negSucc k) => 'e' :: '-' :: Nat.toDigits 10 (k + 1)

/-- The text of a sign. -/
def signChars (negative : Bool) : List Char := if negative then ['-'] else []

theorem chars_numeral (n : Numeral) :
    n.chars = signChars n.negative ++
      (Nat.toDigits 10 n.whole ++ (pointChars n.fraction ++ powerChars n.exponent)) := by
  obtain ⟨negative, whole, fraction, exponent⟩ := n
  rcases exponent with _ | _ | _ <;> simp [Numeral.chars, signChars, pointChars, powerChars]

variable {rest : List Char}

theorem startsWithDigit_of_continuesNumber (ends : continuesNumber rest = false) :
    startsWithDigit rest = false := by
  cases rest with
  | nil => rfl
  | cons c rest =>
    simp only [continuesNumber, decide_eq_false_iff_not, not_or] at ends
    simpa [startsWithDigit] using ends.1

theorem scanExponent_powerChars (exponent : Option Int) (ends : continuesNumber rest = false) :
    scanExponent (powerChars exponent ++ rest) = some (exponent, rest) := by
  have noDigit := startsWithDigit_of_continuesNumber ends
  rcases exponent with _ | k | k
  · cases rest with
    | nil => rfl
    | cons c rest =>
      simp only [continuesNumber, decide_eq_false_iff_not, not_or] at ends
      simp [powerChars, scanExponent, ends.2.2]
  · have digits := spanDigits_toDigits k noDigit
    obtain ⟨first, more, written⟩ := List.exists_cons_of_ne_nil (natDigits_ne_nil k)
    have number := ofDigits_natDigits k
    rw [written] at digits number
    simp [powerChars, scanExponent, digits, number]
  · have digits := spanDigits_toDigits (k + 1) noDigit
    obtain ⟨first, more, written⟩ := List.exists_cons_of_ne_nil (natDigits_ne_nil (k + 1))
    have number := ofDigits_natDigits (k + 1)
    rw [written] at digits number
    simp [powerChars, scanExponent, digits, number, Int.negSucc_eq]

theorem startsWithDigit_powerChars (exponent : Option Int) (noDigit : startsWithDigit rest = false) :
    startsWithDigit (powerChars exponent ++ rest) = false := by
  rcases exponent with _ | _ | _
  · exact noDigit
  · rfl
  · rfl

theorem scanFraction_pointChars (fraction : List (Fin 10)) (exponent : Option Int)
    (ends : continuesNumber rest = false) :
    scanFraction (pointChars fraction ++ (powerChars exponent ++ rest)) =
      some (fraction, powerChars exponent ++ rest) := by
  have noDigit :=
    startsWithDigit_powerChars exponent (startsWithDigit_of_continuesNumber ends)
  cases fraction with
  | nil =>
    have noPoint : ∀ tail, powerChars exponent ++ rest ≠ '.' :: tail := by
      intro tail same
      rcases exponent with _ | _ | _
      · rw [powerChars, List.nil_append] at same
        simp [same, continuesNumber] at ends
      · simp [powerChars] at same
      · simp [powerChars] at same
    unfold scanFraction
    split
    · rename_i tail same
      exact absurd same (noPoint tail)
    · rfl
  | cons first more =>
    have digits := spanDigits_append (first :: more) [] noDigit
    change scanFraction ('.' :: ((first :: more).map digitChar ++ (powerChars exponent ++ rest))) = _
    rw [scanFraction, digits]
    rfl

/-- Only zero starts with a zero. -/
theorem scanWhole_toDigits (n : Nat) (noDigit : startsWithDigit rest = false) :
    scanWhole (Nat.toDigits 10 n ++ rest) = some (n, rest) := by
  obtain ⟨first, more, written⟩ := List.exists_cons_of_ne_nil (natDigits_ne_nil n)
  have number := ofDigits_natDigits n
  have noLeading : ¬ (first = zeroDigit ∧ ¬ more.isEmpty = true) := by
    rintro ⟨leading, further⟩
    exact further (by rw [head_natDigits written leading]; rfl)
  rw [scanWhole, spanDigits_toDigits n noDigit]
  rw [written] at number ⊢
  simp only [number, if_neg noLeading]

/-- A number is read up to the first character that cannot continue it. -/
theorem scanNumeral_chars (n : Numeral) (ends : continuesNumber rest = false) :
    scanNumeral (n.chars ++ rest) = some (n, rest) := by
  obtain ⟨negative, whole, fraction, exponent⟩ := n
  have noDigit : startsWithDigit (pointChars fraction ++ (powerChars exponent ++ rest)) = false := by
    cases fraction with
    | nil => exact startsWithDigit_powerChars exponent (startsWithDigit_of_continuesNumber ends)
    | cons first more => rfl
  simp only [chars_numeral, List.append_assoc]
  cases negative with
  | true =>
    simp only [signChars, if_true, List.singleton_append, scanNumeral,
      scanWhole_toDigits whole noDigit, scanFraction_pointChars fraction exponent ends,
      scanExponent_powerChars exponent ends, Option.bind_eq_bind, Option.bind_some, Option.pure_def]
  | false =>
    obtain ⟨first, more, spelled, digit⟩ := toDigits_eq_cons whole
    have notMinus : first ≠ '-' := by
      rintro rfl
      cases digit
    have scanned := scanWhole_toDigits whole noDigit
    rw [spelled] at scanned ⊢
    rw [List.cons_append] at scanned
    simp only [signChars, Bool.false_eq_true, if_false, List.nil_append, List.cons_append,
      scanNumeral]
    simp [notMinus, scanned, scanFraction_pointChars fraction exponent ends,
      scanExponent_powerChars exponent ends]

end Json

end ScriptFlow
