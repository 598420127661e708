import ScriptFlow.Json.Writer
import ScriptFlow.Proofs.Json.Values

/-! Rereading: a value that was read from a document in some form is written in one form of its own,
and read from that again. Whatever room for brackets the first form left, the written form gets by
with the same room. Only numbers can be lost on the way, since a number is written with few digits
and read in two roundings, and an infinity is written as `null`; so a value is read back exactly if
each of its numbers is. -/
namespace ScriptFlow

/-- A number is read back when it alone is written as a document. -/
def Single.Survives (x : Single) : Prop :=
  (Json.read? (Json.ofSingle x).compact).bind Json.single? = some x

instance (x : Single) : Decidable x.Survives := inferInstanceAs (Decidable (_ = some x))

namespace Json

@[simp] theorem spelled_ofSingle (x : Single) : Spelled (ofSingle x) := by
  unfold ofSingle
  split
  · exact .number _
  · exact .null

theorem survives_iff (x : Single) : x.Survives ↔ (ofSingle x).single? = some x := by
  rw [Single.Survives, read?_compact (spelled_ofSingle x), Option.bind_some]

-- An infinity has no digits to be read from.
example : ¬ (⟨0x7f800000⟩ : Single).Survives := by decide +kernel

/-- What is read is read again from what is written for it exactly if all of its numbers survive. -/
def Keeps {α : Type} (read : Json → Option α) (write : α → Json) (floats : α → List Single) : Prop :=
  ∀ json value, read json = some value →
    (read (write value) = some value ↔ ∀ x ∈ floats value, x.Survives)

/-! ### Scalars -/

theorem keeps_of_reads {α : Type} {read : Json → Option α} {write : α → Json}
    (reads : ∀ value, read (write value) = some value) : Keeps read write fun _ => [] := by
  intro json value _
  simp [reads]

theorem keeps_text : Keeps text? ofText fun _ => [] := keeps_of_reads text?_ofText
theorem keeps_bool : Keeps bool? bool fun _ => [] := keeps_of_reads fun _ => rfl
theorem keeps_uint8 : Keeps uint8? (fun n => ofNat n.toNat) fun _ => [] :=
  keeps_of_reads uint8?_ofNat
theorem keeps_uint16 : Keeps uint16? (fun n => ofNat n.toNat) fun _ => [] :=
  keeps_of_reads uint16?_ofNat
theorem keeps_uint32 : Keeps uint32? (fun n => ofNat n.toNat) fun _ => [] :=
  keeps_of_reads uint32?_ofNat
theorem keeps_uint64 : Keeps uint64? (fun n => ofNat n.toNat) fun _ => [] :=
  keeps_of_reads uint64?_ofNat
theorem keeps_int32 : Keeps int32? (fun n => ofInt n.toInt) fun _ => [] :=
  keeps_of_reads int32?_ofInt
theorem keeps_int64 : Keeps int64? (fun n => ofInt n.toInt) fun _ => [] :=
  keeps_of_reads int64?_ofInt

theorem keeps_single : Keeps single? ofSingle fun x => [x] := by
  intro json x _
  simp [survives_iff]

theorem Keeps.scalar {α : Type} {read : Json → Option α} {write : α → Json} {floats : α → List Single}
    (keeps : Keeps read write floats) (room : Nat) : Keeps (scalar? read room) write floats := keeps

/-! ### Lists and records -/

variable {α β σ : Type}

theorem keeps_list {item : Decoder α} {write : α → Json} {floats : α → List Single}
    (keeps : ∀ room, Keeps (item room) write floats) (room : Nat) :
    Keeps (list? item room) (fun values => .array (values.map write))
      fun values => values.flatMap floats := by
  intro json values read
  obtain ⟨room, rfl, each⟩ := list?_room read
  simp only [list?_array, List.mem_flatMap]
  constructor
  · rintro again x ⟨value, member, inside⟩
    obtain ⟨source, found⟩ := each value member
    exact (keeps room source value found).mp (again value member) x inside
  · intro survive value member
    obtain ⟨source, found⟩ := each value member
    exact (keeps room source value found).mpr fun x inside => survive x ⟨value, member, inside⟩

/-- Something made from a value is read back exactly if the value is. -/
theorem Keeps.made {read : Json → Option α} {write : α → Json} {floats : α → List Single}
    (keeps : Keeps read write floats) (make : α → β)
    (injective : ∀ a a', make a = make a' ↔ a = a') {json : Json} {value : β}
    (found : (read json).map make = some value) :
    ∃ a, value = make a ∧
      ((read (write a)).map make = some value ↔ ∀ x ∈ floats a, x.Survives) := by
  obtain ⟨a, isRead, rfl⟩ := Option.map_eq_some_iff.mp found
  refine ⟨a, rfl, ?_⟩
  rw [← keeps json a isRead]
  simp [injective]

theorem Keeps.bound {read : Json → Option α} {write : α → Json} {floats : α → List Single}
    (keeps : Keeps read write floats) (make : α → β)
    (injective : ∀ a a', make a = make a' ↔ a = a') {json : Json} {value : β}
    (found : (do return make (← read json)) = some value) :
    ∃ a, value = make a ∧
      ((do return make (← read (write a))) = some value ↔ ∀ x ∈ floats a, x.Survives) := by
  have mapped (json : Json) : (do return make (← read json)) = (read json).map make :=
    Option.map_eq_bind.symm
  simp only [mapped] at found ⊢
  exact keeps.made make injective found

@[simp] theorem Fields.names_one (name : String) (value : Decoder α) :
    (Fields.one name value).names = [name] := rfl

@[simp] theorem Fields.names_more (name : String) (value : Decoder α) (others : Fields σ) :
    (Fields.more name value others).names = name :: others.names := rfl

/-- What is read for the fields of a record is read again from what is written for each of them,
exactly if all of its numbers survive. -/
structure Fields.Keeps (fields : Fields σ) (write : σ → List (String × Json))
    (floats : σ → List Single) : Prop where
  /-- The fields are written in their order. -/
  names : ∀ value, (write value).map (·.1) = fields.names
  /-- They are read back if their numbers are. -/
  again : ∀ room given value, fields.read room given = some value →
    (fields.read room ((write value).map fun field => some field.2) = some value ↔
      ∀ x ∈ floats value, x.Survives)

theorem Fields.Keeps.one {value : Decoder α} {write : α → Json} {floats : α → List Single}
    (name : String) (keeps : ∀ room, Json.Keeps (value room) write floats) :
    (Fields.one name value).Keeps (fun a => [(name, write a)]) floats where
  names _ := rfl
  again room given a found := by
    simp only [Fields.one] at found
    split at found
    · exact keeps room _ a found
    · cases found

theorem Fields.Keeps.more {value : Decoder α} {write : α → Json} {floats : α → List Single}
    {others : Fields σ} {writeOthers : σ → List (String × Json)} {floatsOthers : σ → List Single}
    (name : String) (keeps : ∀ room, Json.Keeps (value room) write floats)
    (keepsOthers : others.Keeps writeOthers floatsOthers) :
    (Fields.more name value others).Keeps (fun p => (name, write p.1) :: writeOthers p.2)
      fun p => floats p.1 ++ floatsOthers p.2 where
  names p := congrArg (name :: ·) (keepsOthers.names p.2)
  again room given p found := by
    simp only [Fields.more] at found
    split at found
    · simp only [Option.bind_eq_bind, Option.bind_eq_some_iff, Option.pure_def,
        Option.some.injEq] at found
      obtain ⟨a, readFirst, b, readOthers, rfl⟩ := found
      rw [List.forall_mem_append, ← keeps room _ a readFirst,
        ← keepsOthers.again room _ b readOthers]
      simp [Fields.more, Option.bind_eq_some_iff]
    · cases found

/-- A record is read back if its fields are. -/
theorem Fields.Keeps.record {fields : Fields σ} {write : σ → List (String × Json)}
    {floats : σ → List Single} (keeps : fields.Keeps write floats) (distinct : fields.names.Nodup)
    (room : Nat) : Json.Keeps (record? fields room) (fun value => .record (write value)) floats := by
  intro json value found
  obtain ⟨⟨inner, given⟩, isRecord, isRead⟩ := Option.bind_eq_some_iff.mp found
  have names := keeps.names value
  have written := fields?_again (names ▸ isRecord) (write value) rfl (names ▸ distinct)
  rw [← keeps.again inner given value isRead, record?, ← names, written, Option.bind_some]

end Json

end ScriptFlow
