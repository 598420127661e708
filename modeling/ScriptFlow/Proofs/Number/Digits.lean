import ScriptFlow.Number.Digits
import ScriptFlow.Number.Numeral

/-! Whole numbers read back. A number is written with the digits of its quotient by ten and then its
last digit, so that what is read digit by digit is the number again; and apart from zero itself no
number is written with a zero in front. -/
namespace ScriptFlow

/-- Whether a text starts with a digit. -/
def startsWithDigit : List Char → Bool
  | [] => false
  | c :: _ => (digitOf? c).isSome

theorem digitOf?_digitChar (d : Fin 10) : digitOf? (digitChar d) = some d := by
  decide +revert

/-- Digits are read up to the first character that is none. -/
theorem spanDigits_append (digits read : List (Fin 10)) {rest : List Char}
    (ends : startsWithDigit rest = false) :
    spanDigits read (digits.map digitChar ++ rest) = (read.reverse ++ digits, rest) := by
  induction digits generalizing read with
  | nil =>
    cases rest with
    | nil => simp [spanDigits]
    | cons c rest =>
      have other : digitOf? c = none := by simpa [startsWithDigit] using ends
      simp [spanDigits, other]
  | cons d digits ih => simp [spanDigits, digitOf?_digitChar, ih]

/-! ### The digits of a number -/

theorem natDigits_of_lt {n : Nat} (small : n < 10) : natDigits n = [⟨n, small⟩] := by
  have own := digitOf?_digitChar ⟨n, small⟩
  simp only [digitChar] at own
  simp [natDigits, Nat.toDigits_of_lt_base small, own]

theorem natDigits_of_le {n : Nat} (large : 10 ≤ n) :
    natDigits n = natDigits (n / 10) ++ [⟨n % 10, Nat.mod_lt n (by decide)⟩] := by
  have own := digitOf?_digitChar ⟨n % 10, Nat.mod_lt n (by decide)⟩
  simp only [digitChar] at own
  simp [natDigits, Nat.toDigits_of_base_le (by decide) large, own]

theorem natDigits_ne_nil (n : Nat) : natDigits n ≠ [] := by
  by_cases small : n < 10
  · simp [natDigits_of_lt small]
  · simp [natDigits_of_le (Nat.le_of_not_lt small)]

/-- A number is written with its digits. -/
theorem map_digitChar_natDigits (n : Nat) : (natDigits n).map digitChar = Nat.toDigits 10 n := by
  induction n using Nat.strongRecOn with
  | ind n ih =>
    by_cases small : n < 10
    · simp [natDigits_of_lt small, Nat.toDigits_of_lt_base small, digitChar]
    · have large := Nat.le_of_not_lt small
      rw [natDigits_of_le large, List.map_append, ih (n / 10) (by omega),
        Nat.toDigits_of_base_le (by decide) large]
      rfl

/-- The digits of a number make up the number. -/
theorem ofDigits_natDigits (n : Nat) : ofDigits (natDigits n) = n := by
  induction n using Nat.strongRecOn with
  | ind n ih =>
    by_cases small : n < 10
    · simp [natDigits_of_lt small, ofDigits]
    · have large := Nat.le_of_not_lt small
      have front := ih (n / 10) (by omega)
      rw [ofDigits] at front
      rw [natDigits_of_le large, ofDigits, List.foldl_append, front]
      simp only [List.foldl_cons, List.foldl_nil]
      omega

/-- A written number is read up to its end. -/
theorem spanDigits_toDigits (n : Nat) {rest : List Char} (ends : startsWithDigit rest = false) :
    spanDigits [] (Nat.toDigits 10 n ++ rest) = (natDigits n, rest) := by
  rw [← map_digitChar_natDigits, spanDigits_append _ _ ends]
  rfl

/-- A written number starts with a digit. -/
theorem toDigits_eq_cons (n : Nat) :
    ∃ first more, Nat.toDigits 10 n = first :: more ∧ first.isDigit = true := by
  have written : Nat.toDigits 10 n ≠ [] := by
    rw [← map_digitChar_natDigits]
    simpa using natDigits_ne_nil n
  obtain ⟨first, more, spelled⟩ := List.exists_cons_of_ne_nil written
  have member : first ∈ Nat.toDigits 10 n := by simp [spelled]
  exact ⟨first, more, spelled, Nat.isDigit_of_mem_toDigits (by decide) (by decide) member⟩

/-- A number is written with digits only. -/
theorem not_mem_toDigits {c : Char} (other : c.isDigit = false) (n : Nat) :
    c ∉ Nat.toDigits 10 n := by
  intro member
  have digit := Nat.isDigit_of_mem_toDigits (by decide) (by decide) member
  rw [other] at digit
  cases digit

theorem not_mem_natText {c : Char} (other : c.isDigit = false) (n : Nat) :
    c ∉ (natText n).toList := by
  rw [natText, String.toList_ofList]
  exact not_mem_toDigits other n

/-- Both sides of the point of a decimal are written with digits only. -/
theorem not_mem_positional {c : Char} (other : c.isDigit = false) (d : Decimal) :
    c ∉ d.positional.1 ∧ c ∉ d.positional.2 := by
  have digits := not_mem_toDigits other d.digits
  have notZero : c ≠ '0' := by
    rintro rfl
    cases other
  unfold Decimal.positional
  cases d.exponent with
  | ofNat k => simp [digits, notZero]
  | negSucc k =>
    have padding : c ∉ List.replicate (k + 1 + 1 - (Nat.toDigits 10 d.digits).length) '0' ++
        Nat.toDigits 10 d.digits := by simp [digits, notZero]
    exact ⟨fun member => padding (List.mem_of_mem_take member),
      fun member => padding (List.mem_of_mem_drop member)⟩

/-- Only zero is written with a zero in front. -/
theorem head_natDigits {n : Nat} {first : Fin 10} {more : List (Fin 10)}
    (spelled : natDigits n = first :: more) (leading : first = zeroDigit) : more = [] := by
  induction n using Nat.strongRecOn generalizing more with
  | ind n ih =>
    by_cases small : n < 10
    · rw [natDigits_of_lt small] at spelled
      exact (List.cons.inj spelled).2.symm
    · have large := Nat.le_of_not_lt small
      -- The digits of the quotient come first, and the quotient is not zero.
      obtain ⟨head, tail, front⟩ := List.exists_cons_of_ne_nil (natDigits_ne_nil (n / 10))
      rw [natDigits_of_le large, front, List.cons_append] at spelled
      obtain ⟨same, _⟩ := List.cons.inj spelled
      have alone := ih (n / 10) (by omega) (front.trans (by rw [same]))
      have zero : n / 10 = 0 := by
        rw [← ofDigits_natDigits (n / 10), front, alone, same, leading]
        rfl
      omega

end ScriptFlow
