import ScriptFlow.Layout.Engine
import ScriptFlow.System.Program

/-!
A file tree as a machine: its files are read, and its scripts and the installed programs are run.
-/

namespace ScriptFlow

/-- Starts the layout program at a path with the given input. -/
def FileTree.launch (tree : FileTree) (input path : String) : Launch :=
  match tree.start (bytesOf path) (engineArguments.map bytesOf) with
  | .ok invocation => .started (invocation.course tree input).run
  | .error fault => .refused fault

/-- The machine that has the given files. -/
def FileTree.machine (tree : FileTree) : Machine where
  read := tree.read
  launch := tree.launch

/-- The engine that the layout settings name, as far as it is among the given files. -/
def LayoutSettings.engine (layout : LayoutSettings) (tree : FileTree) : Engine :=
  layout.engineOn tree.machine

end ScriptFlow
