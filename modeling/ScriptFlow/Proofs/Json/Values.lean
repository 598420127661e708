import ScriptFlow.Json.Decoder
import ScriptFlow.Proofs.Collection.OrderedMap
import ScriptFlow.Proofs.Json.Document

/-! Typed values read back. A value is written in one of the forms in which it may be read: a whole
number without point or power, a record as an object with all of its fields, a variant with a
payload as an object with the tag as its key. Reading what was written takes a bracket of room for
every bracket, as much as any other form of the same value takes. -/
namespace ScriptFlow.Json

/-! ### Texts and whole numbers -/

@[simp] theorem text?_ofText (text : String) : (ofText text).text? = some text :=
  Quoted.unescape_escape text

@[simp] theorem int?_ofInt (n : Int) : (ofInt n).int? = some n := by
  have form : ¬ (n < 0 ∧ n.natAbs = 0) := by omega
  simp only [ofInt, int?, Numeral.ofInt, Numeral.toInt?, decide_eq_true_eq]
  rw [if_pos ⟨rfl, trivial, form⟩]
  by_cases negative : n < 0
  · rw [if_pos negative]
    congr
    omega
  · rw [if_neg negative]
    congr
    omega

@[simp] theorem int?_ofNat (n : Nat) : (ofNat n).int? = some (n : Int) := by
  simp [ofNat, int?, Numeral.toInt?]

theorem word?_ofNat {n width : Nat} (fits : n < twoPow width) : (ofNat n).word? width = some n := by
  have bounds : (0 : Int) ≤ n ∧ (n : Int) ≤ twoPow width - 1 := by omega
  simp [word?, intBetween?, bounds]

@[simp] theorem uint8?_ofNat (n : UInt8) : (ofNat n.toNat).uint8? = some n := by
  simp [uint8?, word?_ofNat (show n.toNat < twoPow 8 from n.toNat_lt)]

@[simp] theorem uint16?_ofNat (n : UInt16) : (ofNat n.toNat).uint16? = some n := by
  simp [uint16?, word?_ofNat (show n.toNat < twoPow 16 from n.toNat_lt)]

@[simp] theorem uint32?_ofNat (n : UInt32) : (ofNat n.toNat).uint32? = some n := by
  simp [uint32?, word?_ofNat (show n.toNat < twoPow 32 from n.toNat_lt)]

@[simp] theorem uint64?_ofNat (n : UInt64) : (ofNat n.toNat).uint64? = some n := by
  simp [uint64?, word?_ofNat (show n.toNat < twoPow 64 from n.toNat_lt)]

@[simp] theorem int32?_ofInt (n : Int32) : (ofInt n.toInt).int32? = some n := by
  have low : -(twoPow 31 : Int) ≤ n.toInt := n.le_toInt
  have high : n.toInt < (twoPow 31 : Int) := n.toInt_lt
  have bounds : -(twoPow 31 : Int) ≤ n.toInt ∧ n.toInt ≤ twoPow 31 - 1 := by omega
  simp [int32?, intBetween?, bounds]

@[simp] theorem int64?_ofInt (n : Int64) : (ofInt n.toInt).int64? = some n := by
  have low : -(twoPow 63 : Int) ≤ n.toInt := n.le_toInt
  have high : n.toInt < (twoPow 63 : Int) := n.toInt_lt
  have bounds : -(twoPow 63 : Int) ≤ n.toInt ∧ n.toInt ≤ twoPow 63 - 1 := by omega
  simp [int64?, intBetween?, bounds]

/-! ### Records, variants and lists -/

private theorem mapM_namedMember? (members : List (String × Json)) :
    (members.map writtenMember).mapM namedMember? = some members := by
  rw [mapM_map_eq_some_iff]
  intro member _
  simp [namedMember?, writtenMember]

/-- A field is found by its name, if names do not repeat. -/
private theorem member?_of_mem {members : List (String × Json)}
    (distinct : (members.map (·.1)).Nodup)
    {member : String × Json} (inside : member ∈ members) :
    member? members member.1 = some (some member.2) := by
  have only : members.filter (·.1 = member.1) = [member] := by
    induction members with
    | nil => cases inside
    | cons first rest ih =>
      obtain ⟨fresh, restDistinct⟩ := List.nodup_cons.mp distinct
      rcases List.mem_cons.mp inside with rfl | inside
      · have others : rest.filter (·.1 = member.1) = [] := by
          rw [List.filter_eq_nil_iff]
          intro other otherInside same
          exact fresh (List.mem_map.mpr ⟨other, otherInside, by simpa using same⟩)
        simp [others]
      · have other : first.1 ≠ member.1 := by
          intro same
          exact fresh (List.mem_map.mpr ⟨member, inside, same.symm⟩)
        simpa [other] using ih restDistinct inside
  rw [member?, only]

/-- A record has all of its fields, each under its name. -/
theorem fields?_record (members : List (String × Json)) (distinct : (members.map (·.1)).Nodup)
    (room : Nat) :
    (record members).fields? (members.map (·.1)) (room + 1) =
      some (room, members.map fun member => some member.2) := by
  have found : (members.map (·.1)).mapM (member? members) =
      some (members.map fun member => some member.2) := by
    rw [mapM_map_eq_some_map_iff]
    intro member inside
    exact member?_of_mem distinct inside
  simp only [record_eq, fields?, members?, mapM_namedMember?, found, Option.map_some]

/-- A variant with a payload is read under its tag. -/
@[simp] theorem variant?_record (tag : String) (payload : Json) (room : Nat) :
    (record [(tag, payload)]).variant? (room + 1) = some (tag, some (room, payload)) := by
  simp [record_eq, writtenMember, variant?]

@[simp] theorem variant?_ofText (tag : String) (room : Nat) :
    (ofText tag).variant? room = some (tag, none) := by
  simp [ofText, variant?]

theorem items?_room {json : Json} {room inner : Nat} {items : List Json}
    (found : json.items? room = some (inner, items)) : room = inner + 1 := by
  unfold items? at found
  split at found
  · split at found
    · cases found
    · cases found
      rfl
  · cases found

private theorem members?_room {json : Json} {room inner : Nat} {members : List (String × Json)}
    (found : json.members? room = some (inner, members)) : room = inner + 1 := by
  unfold members? at found
  split at found
  · split at found
    · cases found
    · obtain ⟨_, _, same⟩ := Option.map_eq_some_iff.mp found
      cases same
      rfl
  · cases found

/-- Whichever form a record has, its fields stand inside one bracket. -/
theorem fields?_room {json : Json} {names : List String} {room inner : Nat}
    {fields : List (Option Json)} (found : json.fields? names room = some (inner, fields)) :
    room = inner + 1 := by
  unfold fields? at found
  split at found
  · split at found
    · rename_i items isItems
      split at found
      · cases found
        exact items?_room isItems
      · cases found
    · cases found
  · split at found
    · rename_i members isMembers
      obtain ⟨_, _, same⟩ := Option.map_eq_some_iff.mp found
      cases same
      exact members?_room isMembers
    · cases found

/-- Where the fields of a record were read, those of a written record are. -/
theorem fields?_again {json : Json} {names : List String} {room inner : Nat}
    {fields : List (Option Json)} (found : json.fields? names room = some (inner, fields))
    (members : List (String × Json)) (named : members.map (·.1) = names) (distinct : names.Nodup) :
    (record members).fields? names room = some (inner, members.map fun member => some member.2) := by
  obtain rfl := fields?_room found
  subst named
  exact fields?_record members distinct inner

theorem variant?_room {json payload : Json} {tag : String} {room inner : Nat}
    (found : json.variant? room = some (tag, some (inner, payload))) : room = inner + 1 := by
  unfold variant? at found
  split at found
  · obtain ⟨_, _, same⟩ := Option.map_eq_some_iff.mp found
    cases same
  · split at found
    · cases found
    · obtain ⟨_, _, same⟩ := Option.map_eq_some_iff.mp found
      cases same
      rfl
  · cases found

/-- The items of a list stand inside one bracket. -/
theorem list?_room {α : Type} {item : Decoder α} {json : Json} {room : Nat} {values : List α}
    (found : list? item room json = some values) :
    ∃ inner, room = inner + 1 ∧ ∀ value ∈ values, ∃ j, item inner j = some value := by
  unfold list? at found
  split at found
  · cases found
  · rename_i inner items isItems
    exact ⟨inner, items?_room isItems, exists_of_mapM_eq_some found⟩

theorem list?_array {α : Type} {item : Decoder α} {write : α → Json} {room : Nat} {values : List α} :
    list? item (room + 1) (.array (values.map write)) = some values ↔
      ∀ value ∈ values, item room (write value) = some value := by
  simp only [list?, items?]
  exact mapM_map_eq_some_iff

end ScriptFlow.Json
