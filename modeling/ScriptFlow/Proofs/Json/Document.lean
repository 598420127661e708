import ScriptFlow.Json.Writer
import ScriptFlow.Proofs.Json.Scalars

/-! Documents read back. A document in which every string and every key is an escaped text is read
from its own text again, and nothing of what follows the text is taken for a part of it. Reading
spends at most two units of fuel for a character, and it starts with that many. -/
namespace ScriptFlow.Json

/-- All strings and keys of a document are escaped texts. -/
inductive Spelled : Json → Prop
  | null : Spelled .null
  | bool (value : Bool) : Spelled (.bool value)
  | number (n : Numeral) : Spelled (.number n)
  | text (text : String) : Spelled (.ofText text)
  | array {items : List Json} (each : ∀ item ∈ items, Spelled item) : Spelled (.array items)
  | record {members : List (String × Json)} (each : ∀ member ∈ members, Spelled member.2) :
    Spelled (.record members)

attribute [simp] Spelled.null Spelled.bool Spelled.text Spelled.record

@[simp] theorem spelled_ofNat (n : Nat) : Spelled (ofNat n) := .number _
@[simp] theorem spelled_ofInt (n : Int) : Spelled (ofInt n) := .number _

/-- An array is spelled if what is written for each of its values is. -/
theorem spelled_map {α : Type} {write : α → Json} {values : List α}
    (each : ∀ value ∈ values, Spelled (write value)) : Spelled (.array (values.map write)) :=
  .array (List.forall_mem_map.mpr each)

/-! ### The first character -/

/-- The characters other than digits that a document can start with. -/
def starters : List Char := ['-', '"', '[', '\x7b', 'n', 't', 'f']

theorem numeral_eq_cons (n : Numeral) :
    ∃ first more, n.chars = first :: more ∧ (first.isDigit = true ∨ first = '-') := by
  rw [chars_numeral]
  cases n.negative with
  | true => exact ⟨_, _, rfl, .inr rfl⟩
  | false =>
    obtain ⟨first, more, written, digit⟩ := toDigits_eq_cons n.whole
    exact ⟨first, _, by rw [written]; rfl, .inl digit⟩

theorem chars_eq_cons {json : Json} (spelled : Spelled json) :
    ∃ first more, json.chars = first :: more ∧ (first.isDigit = true ∨ first ∈ starters) := by
  have fixed {first : Char} (member : first ∈ starters) :
      first.isDigit = true ∨ first ∈ starters := .inr member
  cases spelled with
  | null => exact ⟨_, _, rfl, fixed (by decide)⟩
  | bool value => cases value <;> exact ⟨_, _, rfl, fixed (by decide)⟩
  | number n =>
    obtain ⟨first, more, written, digit | rfl⟩ := numeral_eq_cons n
    · exact ⟨first, more, written, .inl digit⟩
    · exact ⟨_, more, written, fixed (by decide)⟩
  | text text => exact ⟨_, _, rfl, fixed (by decide)⟩
  | array each =>
    rename_i items
    cases items <;> exact ⟨_, _, rfl, fixed (by decide)⟩
  | record each =>
    rename_i members
    cases members <;> exact ⟨_, _, rfl, fixed (by decide)⟩

/-- A character that is neither a digit nor starts a document is none that a document starts
with. -/
theorem ne_of_starts {first other : Char} (starts : first.isDigit = true ∨ first ∈ starters)
    (digit : other.isDigit = false) (starter : other ∉ starters) : first ≠ other := by
  rintro rfl
  rcases starts with isDigit | member
  · rw [digit] at isDigit
    cases isDigit
  · exact starter member

theorem skipBlank_of_starts {first : Char} (starts : first.isDigit = true ∨ first ∈ starters)
    (rest : List Char) : skipBlank (first :: rest) = first :: rest := by
  have visible : isBlank first = false := by
    simp only [isBlank, decide_eq_false_iff_not, not_or]
    refine ⟨?_, ?_, ?_, ?_⟩ <;> exact ne_of_starts starts (by decide) (by decide)
  simp [skipBlank, visible]

/-! ### Values -/

/-- Every document has a first character, and so there is fuel to start with. -/
theorem exists_fuel {json : Json} (spelled : Spelled json) {fuel : Nat}
    (enough : 2 * json.chars.length ≤ fuel) : ∃ less, fuel = less + 1 := by
  obtain ⟨first, more, written, _⟩ := chars_eq_cons spelled
  rw [written, List.length_cons] at enough
  exact ⟨fuel - 1, by omega⟩

/-- A document is read from its text, given fuel for its characters. -/
def Reads (json : Json) : Prop :=
  ∀ rest fuel, continuesNumber rest = false → 2 * json.chars.length ≤ fuel →
    readValue fuel (json.chars ++ rest) = some (json, rest)

private theorem reads_number (n : Numeral) : Reads (.number n) := by
  intro rest fuel ends enough
  obtain ⟨first, more, written, starts⟩ := numeral_eq_cons n
  have scanned := scanNumeral_chars n ends
  have starter : first.isDigit = true ∨ first ∈ starters :=
    starts.imp_right fun minus => by simp [minus, starters]
  have shown := skipBlank_of_starts starter (more ++ rest)
  obtain ⟨fuel, rfl⟩ := exists_fuel (.number n) enough
  rw [chars, written]
  rw [written, List.cons_append] at scanned
  have other (c : Char) (digit : c.isDigit = false) (minus : c ≠ '-') (tail : List Char) :
      first :: (more ++ rest) ≠ c :: tail := by
    intro same
    obtain ⟨rfl, _⟩ := List.cons.inj same
    rcases starts with isDigit | rfl
    · rw [digit] at isDigit
      cases isDigit
    · exact minus rfl
  unfold readValue
  rw [List.cons_append, shown]
  split
  case h_7 => simp [scanned]
  all_goals
    rename_i same
    exact absurd same (other _ (by decide) (by decide) _)

private theorem reads_text (text : String) : Reads (.ofText text) := by
  intro rest fuel _ enough
  obtain ⟨fuel, rfl⟩ := exists_fuel (.text text) enough
  have scanned := scanString_escape text rest
  simp [ofText, chars, quoted, readValue, skipBlank, isBlank, scanned]

/-- The items after the first end at the bracket that closes the array. -/
private theorem readItems_chars {items : List Json} (rest : List Char) (read : List Json)
    (item : Json)
    (fuel : Nat) (each : ∀ j ∈ item :: items, Reads j)
    (enough : 2 * (item.chars.length + (itemsChars items).length) < fuel) :
    readItems fuel read (item.chars ++ (itemsChars items ++ rest)) =
      some (.array (read.reverse ++ item :: items), rest) := by
  induction items generalizing item read fuel with
  | nil =>
    obtain ⟨fuel, rfl⟩ := Nat.exists_eq_add_one_of_ne_zero (show fuel ≠ 0 by omega)
    have first := each item (List.mem_cons_self ..) (']' :: rest) fuel rfl (by omega)
    simp [readItems, itemsChars, first, skipBlank, isBlank]
  | cons next items ih =>
    obtain ⟨fuel, rfl⟩ := Nat.exists_eq_add_one_of_ne_zero (show fuel ≠ 0 by omega)
    have first := each item (List.mem_cons_self ..)
      (',' :: (next.chars ++ (itemsChars items ++ rest))) fuel rfl (by omega)
    have later := ih (item :: read) next fuel (fun j member => each j (List.mem_cons_of_mem _ member))
      (by simp [itemsChars] at enough; omega)
    simp [readItems, itemsChars, first, skipBlank, isBlank, later]

private theorem reads_array {items : List Json} (each : ∀ item ∈ items, Reads item)
    (spelled : ∀ item ∈ items, Spelled item) : Reads (.array items) := by
  intro rest fuel _ enough
  obtain ⟨fuel, rfl⟩ := exists_fuel (.array spelled) enough
  cases items with
  | nil => simp [chars, readValue, skipBlank, isBlank]
  | cons item items =>
    obtain ⟨first, more, written, starts⟩ := chars_eq_cons (spelled item (List.mem_cons_self ..))
    have inside := readItems_chars rest [] item fuel each (by simp [chars] at enough; omega)
    have notEmpty : first ≠ ']' := ne_of_starts starts (by decide) (by decide)
    have shown := skipBlank_of_starts starts (more ++ (itemsChars items ++ rest))
    rw [written, List.cons_append] at inside
    have opened : skipBlank ('[' :: (first :: (more ++ (itemsChars items ++ rest)))) =
        '[' :: (first :: (more ++ (itemsChars items ++ rest))) := rfl
    simp only [chars, written, List.cons_append, List.append_assoc, readValue, opened, shown]
    simp [notEmpty, inside]

/-- A member as it is kept, its key escaped. -/
def writtenMember (member : String × Json) : List Char × Json :=
  (Quoted.escape member.1, member.2)

/-- The members after the first end at the brace that closes the object. -/
private theorem readMembers_chars {members : List (String × Json)} (rest : List Char)
    (read : List (List Char × Json)) (member : String × Json) (fuel : Nat)
    (each : ∀ m ∈ member :: members, Reads m.2)
    (enough : 2 * (member.2.chars.length + (membersChars (members.map writtenMember)).length) <
      fuel) :
    readMembers fuel read (quoted (Quoted.escape member.1) ++ ':' ::
        (member.2.chars ++ (membersChars (members.map writtenMember) ++ rest))) =
      some (.object (read.reverse ++ (member :: members).map writtenMember), rest) := by
  induction members generalizing member read fuel with
  | nil =>
    obtain ⟨fuel, rfl⟩ := Nat.exists_eq_add_one_of_ne_zero (show fuel ≠ 0 by omega)
    have first := each member (List.mem_cons_self ..) ('\x7d' :: rest) fuel rfl (by omega)
    have key := scanString_escape member.1 (':' :: (member.2.chars ++ '\x7d' :: rest))
    simp [readMembers, membersChars, quoted, key, first, skipBlank, isBlank, writtenMember]
  | cons next members ih =>
    obtain ⟨fuel, rfl⟩ := Nat.exists_eq_add_one_of_ne_zero (show fuel ≠ 0 by omega)
    have first (tail : List Char) :
        readValue fuel (member.2.chars ++ ',' :: tail) = some (member.2, ',' :: tail) :=
      each member (List.mem_cons_self ..) _ fuel rfl (by omega)
    have later := ih (writtenMember member :: read) next fuel
      (fun m inside => each m (List.mem_cons_of_mem _ inside))
      (by simp [membersChars, writtenMember] at enough ⊢; omega)
    simp only [quoted, List.cons_append, List.append_assoc, List.nil_append, writtenMember] at later
    simp [readMembers, membersChars, quoted, scanString_escape, first, skipBlank, isBlank, later,
      writtenMember]

theorem record_eq (members : List (String × Json)) :
    record members = .object (members.map writtenMember) := rfl

private theorem reads_record {members : List (String × Json)} (each : ∀ m ∈ members, Reads m.2)
    (spelled : ∀ m ∈ members, Spelled m.2) : Reads (.record members) := by
  intro rest fuel _ enough
  obtain ⟨fuel, rfl⟩ := exists_fuel (.record spelled) enough
  rw [record_eq] at enough ⊢
  cases members with
  | nil => simp [chars, readValue, skipBlank, isBlank]
  | cons member members =>
    simp only [List.map_cons, chars, writtenMember, List.length_cons, List.length_append] at enough
    have inside := readMembers_chars rest [] member fuel each (by omega)
    simp only [quoted, List.cons_append, List.append_assoc, List.nil_append] at inside
    simp [chars, readValue, skipBlank, isBlank, writtenMember, quoted, inside]

/-- A document of escaped texts is read from its text, whatever follows. -/
theorem Spelled.reads {json : Json} (spelled : Spelled json) : Reads json := by
  induction spelled with
  | null =>
    intro rest fuel _ enough
    obtain ⟨fuel, rfl⟩ := exists_fuel .null enough
    rfl
  | bool value =>
    intro rest fuel _ enough
    obtain ⟨fuel, rfl⟩ := exists_fuel (.bool value) enough
    cases value <;> rfl
  | number n => exact reads_number n
  | text text => exact reads_text text
  | array each ih => exact reads_array ih each
  | record each ih => exact reads_record ih each

/-- A document of escaped texts is read back from its text. -/
theorem read?_compact {json : Json} (spelled : Spelled json) : read? json.compact = some json := by
  have found := spelled.reads [] (2 * json.chars.length + 2) rfl (by omega)
  rw [List.append_nil] at found
  simp [read?, compact, found, skipBlank]

end ScriptFlow.Json
