import ScriptFlow.Json.Reader

/-!
Reading typed values from a document. Every bracket that is entered on the way to a value uses up
one unit of room, and the outermost value has room for 127; a part that no field asks for is
skipped and needs none. A record is written as an object, whose unknown keys are skipped and whose
known keys may not repeat, or as an array with its fields in order; a variant is written as its tag
alone or as an object with the tag as its only key.
-/

namespace ScriptFlow.Json

/-- How many brackets may be open at once. -/
def nestingLimit : Nat := 127

/-- A way to read a value of a type from a document, given the room for brackets. -/
abbrev Decoder (α : Type) : Type := Nat → Json → Option α

/-- The text of a string. -/
def text? : Json → Option String
  | .string raw => Quoted.unescape raw
  | _ => none

/-- A truth value. -/
def bool? : Json → Option Bool
  | .bool value => some value
  | _ => none

/-- A whole number. -/
def int? : Json → Option Int
  | .number n => n.toInt?
  | _ => none

/-- A whole number between two bounds. -/
def intBetween? (low high : Int) (json : Json) : Option Int :=
  match json.int? with
  | some n => if low ≤ n ∧ n ≤ high then some n else none
  | none => none

/-- A natural number of at most `width` bits. -/
def word? (width : Nat) (json : Json) : Option Nat :=
  (json.intBetween? 0 (twoPow width - 1)).map Int.toNat

/-- An unsigned byte. -/
def uint8? (json : Json) : Option UInt8 := (json.word? 8).map UInt8.ofNat

/-- An unsigned sixteen-bit number. -/
def uint16? (json : Json) : Option UInt16 := (json.word? 16).map UInt16.ofNat

/-- An unsigned 32-bit number. -/
def uint32? (json : Json) : Option UInt32 := (json.word? 32).map UInt32.ofNat

/-- An unsigned 64-bit number. -/
def uint64? (json : Json) : Option UInt64 := (json.word? 64).map UInt64.ofNat

/-- A signed 32-bit number. -/
def int32? (json : Json) : Option Int32 :=
  (json.intBetween? (-twoPow 31) (twoPow 31 - 1)).map Int32.ofInt

/-- A signed 64-bit number. -/
def int64? (json : Json) : Option Int64 :=
  (json.intBetween? (-twoPow 63) (twoPow 63 - 1)).map Int64.ofInt

/-- The number that a numeral stands for. A whole number that fits a 64-bit word is rounded once;
any other numeral is read in double precision first, and may be out of its range. -/
def single? : Json → Option Single
  | .number n =>
    match n.word? with
    | some k => some (.ofInt k)
    | none => n.viaDouble?
  | _ => none

/-- The items of an array, and the room inside it. -/
def items? (room : Nat) : Json → Option (Nat × List Json)
  | .array items =>
    match room with
    | 0 => none
    | room + 1 => some (room, items)
  | _ => none

/-- A list of values. -/
def list? {α : Type} (item : Decoder α) : Decoder (List α) := fun room json =>
  match json.items? room with
  | none => none
  | some (room, items) => items.mapM (item room)

/-- A member with its key read. -/
def namedMember? (member : List Char × Json) : Option (String × Json) :=
  (Quoted.unescape member.1).map (·, member.2)

/-- The members of an object with their keys read, and the room inside it. -/
def members? (room : Nat) : Json → Option (Nat × List (String × Json))
  | .object members =>
    match room with
    | 0 => none
    | room + 1 =>
      (members.mapM namedMember?).map (room, ·)
  | _ => none

/-- The value of a field among the members of an object: `none` if the key repeats, and `some none`
if it is absent. -/
def member? (members : List (String × Json)) (name : String) : Option (Option Json) :=
  match members.filter (·.1 = name) with
  | [] => some none
  | [(_, value)] => some (some value)
  | _ => none

/-- The fields of a record in the order of `names`, absent ones as `none`, and the room inside
it. -/
def fields? (names : List String) (room : Nat) (json : Json) :
    Option (Nat × List (Option Json)) :=
  match json with
  | .array _ =>
    match json.items? room with
    | some (room, items) =>
      if items.length ≤ names.length then
        some (room, items.map some ++ List.replicate (names.length - items.length) none)
      else none
    | none => none
  | _ =>
    match json.members? room with
    | some (room, members) => (names.mapM (member? members)).map (room, ·)
    | none => none

/-- The fields of a record that has to have all of them. -/
structure Fields (σ : Type) where
  /-- Their names. -/
  names : List String
  /-- What is read from the values under these names, given the room around them. -/
  read : Nat → List (Option Json) → Option σ

namespace Fields

variable {α σ : Type}

/-- A single field. -/
def one (name : String) (value : Decoder α) : Fields α where
  names := [name]
  read
    | room, [some json] => value room json
    | _, _ => none

/-- A field in front of others. -/
def more (name : String) (value : Decoder α) (others : Fields σ) : Fields (α × σ) where
  names := name :: others.names
  read
    | room, some json :: rest => do return (← value room json, ← others.read room rest)
    | _, _ => none

end Fields

/-- A record of fields. -/
def record? {σ : Type} (fields : Fields σ) : Decoder σ := fun room json =>
  (json.fields? fields.names room).bind fun (room, given) => fields.read room given

/-- A value that takes no brackets. -/
def scalar? {α : Type} (read : Json → Option α) : Decoder α := fun _ => read

/-- The tag of a variant with its payload, if it has one, and the room around the payload. -/
def variant? (room : Nat) : Json → Option (String × Option (Nat × Json))
  | .string raw => (Quoted.unescape raw).map (·, none)
  | .object [(key, payload)] =>
    match room with
    | 0 => none
    | room + 1 => (Quoted.unescape key).map (·, some (room, payload))
  | _ => none

/-- A variant without payload: its tag alone, or the tag with `null`. -/
def unitVariant? (room : Nat) (json : Json) : Option String :=
  match json.variant? room with
  | some (tag, none) => some tag
  | some (tag, some (_, .null)) => some tag
  | _ => none

/-- The value written under the tag that `tag` gives it. -/
def ofTag? {α : Type} (all : List α) (tag : α → String) (written : String) : Option α :=
  all.find? (tag · = written)

end ScriptFlow.Json
