/-!
Maps that remember the order in which their keys came in. A key keeps the place of its first
insertion, whatever is stored under it later.
-/

namespace ScriptFlow

/-- A map as its entries in order of first insertion. -/
structure OrderedMap (κ ν : Type) where
  /-- The entries in order. -/
  entries : List (κ × ν) := []

namespace OrderedMap

variable {κ ν : Type} [DecidableEq κ]

/-- The value stored under a key. -/
def get? (m : OrderedMap κ ν) (key : κ) : Option ν :=
  (m.entries.find? (·.1 = key)).map (·.2)

/-- The entries with the value under `key` replaced by `change` of it; a new key goes to the end
with `change none`. -/
def alterEntries (key : κ) (change : Option ν → ν) : List (κ × ν) → List (κ × ν)
  | [] => [(key, change none)]
  | (k, v) :: rest =>
    if k = key then (k, change (some v)) :: rest else (k, v) :: alterEntries key change rest

/-- The map with the value under `key` replaced by `change` of it. -/
def alter (m : OrderedMap κ ν) (key : κ) (change : Option ν → ν) : OrderedMap κ ν :=
  ⟨alterEntries key change m.entries⟩

/-- The map with `value` stored under `key`. -/
def insert (m : OrderedMap κ ν) (key : κ) (value : ν) : OrderedMap κ ν :=
  m.alter key fun _ => value

/-- The map of a list of entries, later ones overriding earlier ones. -/
def ofList (entries : List (κ × ν)) : OrderedMap κ ν :=
  entries.foldl (fun m (key, value) => m.insert key value) {}

/-- The keys in order. -/
def keys (m : OrderedMap κ ν) : List κ := m.entries.map (·.1)

end OrderedMap

end ScriptFlow
