import ScriptFlow.Settings.Reader
import ScriptFlow.Toml.Reader

/-!
Settings files, which are TOML documents. A record may be an array there as well, with items beyond
its last field passed over; a moment is a record without any of the fields.
-/

namespace ScriptFlow

namespace Toml.Value

def bool? : Value → Option Bool
  | .bool value => some value
  | _ => none

def text? : Value → Option String
  | .text value => some value
  | _ => none

/-- A natural number of at most 64 bits. -/
def word? : Value → Option Nat
  | .int (.ofNat n) => some n
  | _ => none

/-- A number; a whole number is rounded once. -/
def single? : Value → Option Single
  | .int n => some (.ofInt n)
  | .float x => some x
  | _ => none

def items? : Value → Option (List Value)
  | .array items => some items
  | _ => none

/-- The fields of a record under the given names. -/
def fields? (names : List String) : Value → Option (List (Option Value))
  | .table members => some (names.map fun name => lookup? name members)
  | .array items =>
    let given := items.take names.length
    some (given.map some ++ List.replicate (names.length - given.length) none)
  | .moment => some (names.map fun _ => none)
  | _ => none

/-- A bare tag: a text, or a table with the tag as its only key and nothing under it. -/
def tag? : Value → Option String
  | .text tag => some tag
  | .table [(tag, .array [])] => some tag
  | .table [(tag, .table [])] => some tag
  | _ => none

end Toml.Value

instance : DataFormat Toml.Value where
  bool? := Toml.Value.bool?
  text? := Toml.Value.text?
  word? := Toml.Value.word?
  single? := Toml.Value.single?
  items? := Toml.Value.items?
  fields? := Toml.Value.fields?
  tag? := Toml.Value.tag?

/-- The settings that a file holds. -/
def Settings.read? (text : String) : Option Settings := (Toml.read? text).bind Settings.ofData?

end ScriptFlow
