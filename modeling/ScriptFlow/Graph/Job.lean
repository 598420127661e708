import ScriptFlow.Graph.Build

/-!
The decoding of a function as a whole. The function gets an entry node; a shared body, which other
functions enter at offsets of their own, gets one more for each call that enters it. Then the
instructions follow, and last the queued outputs are connected.
-/

namespace ScriptFlow

/-- A call that enters another function at an offset: a call by reference with exactly one constant
argument. -/
def entryCall? : Expr String → Option (String × Int)
  | .variadic (.call .final target) [.atom (.int start)] => some (target, start.toInt)
  | _ => none

/-- What is decoded: the stream of a function, and what is known of its surroundings. -/
structure Job where
  /-- How to decode. -/
  settings : DecodeSettings := {}
  /-- The stream, its references resolved. -/
  stream : List (Expr String) := []
  /-- The name of the function, if it gets an entry node. -/
  entry : Option String := none
  /-- All functions of the package by name, if calls among them are taken into account. -/
  functions : Option (List (String × List (Expr String))) := none
  /-- Whether a function is a shared body that others enter at an offset. -/
  isDispatch : String → Bool := fun _ => false

namespace Job

/-- The calls that enter a shared body, with the functions that make them and the offsets. -/
def entryCalls (entry : String) (functions : List (String × List (Expr String))) :
    List (String × Int) :=
  functions.flatMap fun (function, stream) =>
    stream.filterMap fun e =>
      match entryCall? e with
      | some (target, start) =>
        if shortName target = shortName entry then some (function, start) else none
      | none => none

/-- The build with the entry that a call makes; a call to a negative offset only leaves a
remark. -/
def addEntryCall (entry : String) (build : Build) (call : String × Int) : Build :=
  match call.2 with
  | .ofNat start => build.addEntry call.1 start
  | .negSucc _ => build.onGraph (·.diagnose (.negativeEntry call.1 entry call.2))

/-- The build with the entries of the function: its own at the start and, for a shared body, one
for each call that enters it. -/
def addEntries (job : Job) (build : Build) : Build :=
  match job.entry with
  | none => build
  | some entry =>
    let build := build.addEntry entry 0
    match job.isDispatch entry, job.functions with
    | true, some functions => (entryCalls entry functions).foldl (addEntryCall entry) build
    | _, _ => build

/-- The graph of the stream, continuing a build that may hold values already. -/
def finish (job : Job) (build : Build) : Except ModelGap Graph := do
  let offsets ← OffsetTable.build job.stream
  let build ← Build.addStream job.settings 0 0 job.stream (job.addEntries build)
  return (build.jumps.resolve offsets build.nodeAt? build.graph).1

/-- The graph of the stream. -/
def graph (job : Job) : Except ModelGap Graph := job.finish {}

end Job

end ScriptFlow
