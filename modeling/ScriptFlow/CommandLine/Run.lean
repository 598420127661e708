import ScriptFlow.CommandLine.Outcome
import ScriptFlow.System.Machine

/-!
The command line among given files, which are all that its machine has.
-/

namespace ScriptFlow.CommandLine

/-- The outcome of the given arguments among files. -/
def run (tree : FileTree) (colors : Bool) (arguments : List String) : Outcome :=
  outcome tree.machine colors arguments

end ScriptFlow.CommandLine
