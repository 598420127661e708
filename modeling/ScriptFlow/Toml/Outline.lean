import ScriptFlow.Toml.Basic

/-!
A TOML document under construction. Headers and dotted keys open tables along their way, and how a
table came about decides what may still be done to it: one that a header only passed through can
get a header of its own later, one that dotted keys made can get further dotted keys, and one that
has its own header is closed to both. Plain values, inline tables among them, are closed to
everything.
-/

namespace ScriptFlow.Toml

/-- How a table came about. -/
inductive Origin where
  /-- It has a header of its own. -/
  | header
  /-- A header passed through it. -/
  | passed
  /-- A dotted key made it. -/
  | dotted
  deriving DecidableEq

/-- What stands under a key of a document under construction. -/
inductive Item where
  /-- A value. -/
  | value (value : Value)
  /-- A table. -/
  | table (origin : Origin) (members : List (String × Item))
  /-- The tables of repeated headers, the latest first. -/
  | tables (elements : List (List (String × Item)))

/-- The members of a table under construction. -/
abbrev Members := List (String × Item)

namespace Members

/-- The members with what stands under a key replaced. -/
def replace (members : Members) (key : String) (item : Item) : Members :=
  members.map fun (k, old) => if k = key then (k, item) else (k, old)

/-- The members with a new key. -/
def append (members : Members) (key : String) (item : Item) : Members := members ++ [(key, item)]

/-- The members with a value under a dotted key, given as the parts before the last and the
last. -/
def define (key : String) (value : Value) : List String → Members → Option Members
  | [], members =>
    match lookup? key members with
    | none => some (members.append key (.value value))
    | some _ => none
  | step :: path, members =>
    match lookup? step members with
    | none =>
      (define key value path []).map fun inner => members.append step (.table .dotted inner)
    | some (.table origin inner) =>
      if origin = .header ∨ (path.isEmpty ∧ origin ≠ .dotted) then none
      else (define key value path inner).map fun inner => members.replace step (.table origin inner)
    | some (.tables (latest :: earlier)) =>
      if path.isEmpty then none
      else
        (define key value path latest).map fun latest =>
          members.replace step (.tables (latest :: earlier))
    | some _ => none

/-- The members after a change to the table that a header's path leads to; of repeated headers the
latest counts, and tables that are missing on the way are passed through. -/
def update (change : Members → Option Members) : List String → Members → Option Members
  | [], members => change members
  | step :: path, members =>
    match lookup? step members with
    | none => (update change path []).map fun inner => members.append step (.table .passed inner)
    | some (.table origin inner) =>
      (update change path inner).map fun inner => members.replace step (.table origin inner)
    | some (.tables (latest :: earlier)) =>
      (update change path latest).map fun latest =>
        members.replace step (.tables (latest :: earlier))
    | some _ => none

/-- The members with a header for the table under a key. -/
def openTable (key : String) (members : Members) : Option Members :=
  match lookup? key members with
  | none => some (members.append key (.table .header []))
  | some (.table .passed inner) => some (members.replace key (.table .header inner))
  | some _ => none

/-- The members with a further table under a key. -/
def openElement (key : String) (members : Members) : Option Members :=
  match lookup? key members with
  | none => some (members.append key (.tables [[]]))
  | some (.tables elements) => some (members.replace key (.tables ([] :: elements)))
  | some _ => none

end Members

mutual

/-- The finished value of an item. -/
def Item.finish : Item → Value
  | .value value => value
  | .table _ members => .table (finishMembers members)
  | .tables elements => .array (finishElements elements).reverse

/-- The finished members of a table. -/
def finishMembers : List (String × Item) → List (String × Value)
  | [] => []
  | (key, item) :: rest => (key, item.finish) :: finishMembers rest

/-- The finished tables of repeated headers, in the order given. -/
def finishElements : List (List (String × Item)) → List Value
  | [] => []
  | members :: rest => .table (finishMembers members) :: finishElements rest

end

/-- A document under construction and the path of its latest header. -/
structure Outline where
  /-- The members of the document. -/
  members : Members := []
  /-- The path of the table that keys go to. -/
  path : List String := []

namespace Outline

/-- The outline with a value under a dotted key of the current table. -/
def define (outline : Outline) (path : List String) (key : String) (value : Value) :
    Option Outline :=
  (outline.members.update (Members.define key value path) outline.path).map fun members =>
    { outline with members }

/-- The outline after the header of a table. -/
def openTable (outline : Outline) (path : List String) (key : String) : Option Outline :=
  (outline.members.update (Members.openTable key) path).map (⟨·, path ++ [key]⟩)

/-- The outline after the header of a further table under a key. -/
def openElement (outline : Outline) (path : List String) (key : String) : Option Outline :=
  (outline.members.update (Members.openElement key) path).map (⟨·, path ++ [key]⟩)

/-- The document. -/
def finish (outline : Outline) : Value := .table (finishMembers outline.members)

end Outline

end ScriptFlow.Toml
