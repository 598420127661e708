import ScriptFlow.Graph.Basic
import ScriptFlow.OffsetTable

/-!
Jumps that wait for their targets. While a stream is walked, an execution output knows the offset
at which it continues, but not yet the node there; the table holds one obligation for each such
output. It also holds aliases: offsets whose instruction was folded away, each with the offset that
stands in for it. Aliases are kept flat, so that one step leads to the end of every chain.
-/

namespace ScriptFlow

/-- An execution output that is to be connected to the node at an offset. -/
structure Obligation where
  source : NodeId
  pin : String
  target : Nat
  deriving DecidableEq

/-- The pending jumps and the aliases of a stream. -/
structure JumpTable where
  /-- The obligations in the order in which they were registered. -/
  obligations : List Obligation := []
  /-- The offset that stands in for a folded one. -/
  aliases : OrderedMap Nat Nat := {}

namespace JumpTable

/-- The number of aliases. -/
def aliasCount (table : JumpTable) : Nat := table.aliases.entries.length

/-- The end of the chain of aliases from an offset, after at most `steps` of them. -/
def follow (table : JumpTable) : Nat → Nat → Nat
  | 0, offset => offset
  | steps + 1, offset =>
    match table.aliases.get? offset with
    | some next => table.follow steps next
    | none => offset

/-- The offset that stands in for an offset in the end. -/
def canonical (table : JumpTable) (offset : Nat) : Nat := table.follow (table.aliasCount + 1) offset

/-- Whether the chain of aliases from an offset visits `goal` within `steps` offsets. -/
def visits (table : JumpTable) (goal : Nat) : Nat → Nat → Bool
  | 0, _ => false
  | steps + 1, offset =>
    if offset = goal then true
    else match table.aliases.get? offset with
      | some next => table.visits goal steps next
      | none => false

/-- Whether the chain of aliases from an offset visits `goal`. -/
def reaches (table : JumpTable) (offset goal : Nat) : Bool :=
  table.visits goal (table.aliasCount + 1) offset

/-- The table with a further obligation. -/
def register (table : JumpTable) (source : NodeId) (pin : String) (target : Nat) : JumpTable :=
  { table with obligations := table.obligations ++ [⟨source, pin, table.canonical target⟩] }

/-- `target` in the place of `source`. -/
def redirect (source target offset : Nat) : Nat := if offset = source then target else offset

/-- The table in which `target` stands in for `source`; nothing when the alias would close a
cycle. Whatever pointed at `source` is redirected to the end of the chain from `target`. -/
def merge? (table : JumpTable) (source target : Nat) : Option JumpTable :=
  if table.reaches target source then none
  else
    let target := table.canonical target
    let obligations := table.obligations.map fun o =>
      { o with target := redirect source target o.target }
    let aliases : OrderedMap Nat Nat :=
      ⟨table.aliases.entries.map fun (key, value) => (key, redirect source target value)⟩
    some ⟨obligations, aliases.insert source target⟩

/-- What becomes of an obligation. -/
inductive Outcome where
  /-- The output is connected to a node. -/
  | edge (node : NodeId)
  /-- The output stays open, for a reason. -/
  | refused (diagnostic : Diagnostic)

/-- What becomes of an obligation, given where expressions start, the nodes of the top-level
positions and the graph so far. -/
def settle (table : JumpTable) (offsets : OffsetTable) (nodeAt : Nat → Option NodeId) (g : Graph)
    (o : Obligation) : Outcome :=
  let target := table.canonical o.target
  match offsets.get? target with
  | none => .refused (.danglingOffset o.pin o.source target)
  | some site =>
    match if site.isTopLevel then nodeAt site.position else none with
    | none => .refused (.noExecutionNode o.pin o.source site.token target)
    | some node =>
      if g.canConnectExec o.source o.pin then .edge node
      else .refused (.pinTaken o.pin o.source target)

/-- The graph after one obligation, and the number of edges it emitted, added to `emitted`. -/
def discharge (table : JumpTable) (offsets : OffsetTable) (nodeAt : Nat → Option NodeId)
    (state : Graph × Nat) (o : Obligation) : Graph × Nat :=
  match table.settle offsets nodeAt state.1 o with
  | .edge node => (state.1.connectExec o.source o.pin node, state.2 + 1)
  | .refused diagnostic => (state.1.diagnose diagnostic, state.2)

/-- The graph after all obligations, in order, and the number of edges emitted. -/
def resolve (table : JumpTable) (offsets : OffsetTable) (nodeAt : Nat → Option NodeId) (g : Graph) :
    Graph × Nat :=
  table.obligations.foldl (table.discharge offsets nodeAt) (g, 0)

end JumpTable

end ScriptFlow
