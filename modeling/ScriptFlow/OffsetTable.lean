import ScriptFlow.Expr.Walk

/-!
The offset table of a stream: which expression starts at which offset. Offsets grow along the walk
of the stream, so the table lists its sites in ascending order. An offset is a number without bound
here and has four bytes in a script; the two agree as long as a stream has less than `2 ^ 32` bytes.
-/

namespace ScriptFlow

/-- Where an expression sits in a stream. -/
structure Site where
  /-- Index of the top-level expression it belongs to. -/
  position : Nat
  /-- How many expressions enclose it. -/
  depth : Nat
  /-- Name of its token. -/
  token : String
  deriving DecidableEq

/-- Whether the expression is a top-level one. -/
def Site.isTopLevel (site : Site) : Bool := site.depth = 0

/-- All offsets of a stream at which an expression starts. The list of sites stands for an ordered
map: no offset comes twice in it (`OffsetTable.build_sites_nodup`), so that no site hides another. -/
structure OffsetTable where
  /-- The sites by ascending offset. -/
  sites : List (Nat × Site)
  /-- The offset after the last expression. -/
  endOffset : Nat

namespace OffsetTable

variable {ρ : Type}

/-- The site of a visit. -/
def siteOf (position : Nat) (visit : Visit ρ) : Nat × Site :=
  (visit.offset, ⟨position, visit.depth, visit.expr.tokenName⟩)

/-- The table of a stream. -/
def build (stream : List (Expr ρ)) : Except ModelGap OffsetTable :=
  let walk := walkStream stream
  walk.result.map fun endOffset =>
    ⟨walk.visits.map fun (position, visit) => siteOf position visit, endOffset⟩

/-- The expression that starts exactly at an offset. -/
def get? (table : OffsetTable) (offset : Nat) : Option Site :=
  (table.sites.find? (·.1 = offset)).map (·.2)

/-- The offsets of the top-level expressions. -/
def topLevel (table : OffsetTable) : List Nat :=
  (table.sites.filter (·.2.isTopLevel)).map (·.1)

/-- The offset of the top-level expression at a position. -/
def offsetOf? (table : OffsetTable) (position : Nat) : Option Nat := table.topLevel[position]?

/-- The number of expressions, nested ones included. -/
def size (table : OffsetTable) : Nat := table.sites.length

end OffsetTable

end ScriptFlow
