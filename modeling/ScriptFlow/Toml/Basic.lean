import ScriptFlow.Number.Single

/-!
The values of a TOML document. Dates and times are recognised and not kept, since no setting is
one.
-/

namespace ScriptFlow.Toml

/-- A TOML value. -/
inductive Value where
  /-- A truth value. -/
  | bool (value : Bool)
  /-- A whole number of 64 bits. -/
  | int (value : Int)
  /-- A number with a point or a power of ten, read in double precision and then rounded to
  single. -/
  | float (value : Single)
  /-- A string. -/
  | text (value : String)
  /-- A date, a time or both. -/
  | moment
  /-- An array, or the tables of repeated double-bracket headers. -/
  | array (items : List Value)
  /-- A table; no key repeats. -/
  | table (members : List (String × Value))

/-- The value under a key among the members of a table. -/
def lookup? {α : Type} (key : String) (members : List (String × α)) : Option α :=
  (members.find? (·.1 = key)).map (·.2)

end ScriptFlow.Toml
