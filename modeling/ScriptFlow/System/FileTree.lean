import ScriptFlow.Machine

/-!
Files as a program finds them: directories that hold texts, installed programs and other
directories. A place is the list of names that leads to it from the root. A path is followed step by
step from the root or from the working directory, and every step but the last has to lead to a
directory.
-/

namespace ScriptFlow

/-- What a path leads to. -/
inductive FileEntry where
  /-- A file with its text. -/
  | file (text : String)
  /-- A program that is installed under a name. -/
  | program (name : String)
  /-- A directory. -/
  | directory

/-- Files by their places. -/
structure FileTree where
  /-- The entries; the directories that lead to them need none. -/
  entries : List (List String × FileEntry) := []

namespace FileTree

/-- The programs that are installed. -/
def installedPrograms : List String :=
  ["sh", "dash", "bash", "env", "cat", "echo", "false", "grep", "head", "ls", "printf", "seq",
    "sleep", "sort", "tail", "test", "tr", "true", "wc"]

/-- The directories that hold the installed programs. -/
def programDirectories : List (List String) := [["bin"], ["usr", "bin"]]

/-- Directories that every system has. -/
def systemDirectories : List (List String) :=
  [["boot"], ["dev"], ["etc"], ["home"], ["lib"], ["media"], ["mnt"], ["opt"], ["proc"], ["root"],
    ["run"], ["sbin"], ["srv"], ["sys"], ["tmp"], ["usr"], ["usr", "lib"], ["usr", "local"],
    ["usr", "local", "bin"], ["usr", "sbin"], ["usr", "share"], ["var"], ["var", "tmp"]]

/-- Files that every system has, whatever they hold. -/
def systemFiles : List (List String) :=
  [["etc", "group"], ["etc", "hostname"], ["etc", "hosts"], ["etc", "passwd"],
    ["etc", "resolv.conf"]]

/-- What every system has: its programs, its directories, its files and a file that stays empty. -/
def systemEntries : List (List String × FileEntry) :=
  (programDirectories.flatMap fun directory =>
    installedPrograms.map fun name => (directory ++ [name], FileEntry.program name)) ++
  systemDirectories.map (·, .directory) ++ systemFiles.map (·, .file "\n") ++
  [(["dev", "null"], .file "")]

/-- The place of the working directory. -/
def workingDirectory : List String := ["tmp", "work"]

/-- The place that a step leads to; above the root there is only the root. -/
def advance (place : List String) (step : String) : List String :=
  if step = "" ∨ step = "." then place
  else if step = ".." then place.dropLast
  else place ++ [step]

/-- Where a path starts. -/
def origin (path : String) : List String :=
  if path.toList.head? = some '/' then [] else workingDirectory

/-- The steps of a path. -/
def steps (path : String) : List String := path.splitOn "/"

/-- The place that a path names. -/
def placeOf (path : String) : List String := (steps path).foldl advance (origin path)

/-- The tree of the given files; a name without text is a directory. -/
def ofList (files : List (String × Option String)) : FileTree where
  entries := files.map fun (name, text) =>
    (placeOf name,
      match text with
      | some text => .file text
      | none => .directory)

/-- What stands at a place of the tree. -/
def entry? (tree : FileTree) (place : List String) : Option FileEntry :=
  let entries := tree.entries ++ systemEntries
  match entries.find? (·.1 = place) with
  | some (_, entry) => some entry
  | none =>
    if place.isPrefixOf workingDirectory || entries.any (place.isPrefixOf ·.1) then
      some .directory
    else none

/-- The most bytes that a name has. -/
def nameLimit : Nat := 255

/-- The most bytes that a path has. -/
def pathLimit : Nat := 4095

/-- What the remaining steps lead to from a place. -/
def follow (tree : FileTree) (place : List String) : List String → Except FileFault FileEntry
  | [] =>
    match tree.entry? place with
    | some entry => .ok entry
    | none => .error .missing
  | step :: rest =>
    match tree.entry? place with
    | some .directory =>
      if nameLimit < step.utf8ByteSize then .error .tooLong
      else tree.follow (advance place step) rest
    | some _ => .error .notDirectory
    | none => .error .missing

/-- What a path leads to. -/
def resolve (tree : FileTree) (path : String) : Except FileFault FileEntry :=
  if path.isEmpty then .error .missing
  else if pathLimit < path.utf8ByteSize then .error .tooLong
  else tree.follow (origin path) (steps path)

/-- The text of the file that a path leads to. -/
def read (tree : FileTree) (path : String) : Except FileFault String :=
  match tree.resolve path with
  | .ok (.file text) => .ok text
  | .ok (.program _) => .error .notText
  | .ok .directory => .error .isDirectory
  | .error fault => .error fault

/-- Whether a list of characters comes before another by their code points. -/
def isBefore : List Char → List Char → Bool
  | [], _ => true
  | _ :: _, [] => false
  | c :: rest, d :: others => c < d || (c = d && isBefore rest others)

/-- The names in the directory that a path leads to, in the order of their characters; no path
stands for the working directory. -/
def names (tree : FileTree) (path : String) : List String :=
  let place := placeOf path
  let found := tree.entries.filterMap fun (other, _) =>
    if place.isPrefixOf other then (other.drop place.length).head? else none
  found.eraseDups.mergeSort fun name other => isBefore name.toList other.toList

/-- The tree with a file put where a path leads. What is written to the file that stays empty is
lost, and the directory of the file has to be there. -/
def write (tree : FileTree) (path text : String) : Except FileFault FileTree :=
  match tree.resolve path with
  | .ok .directory => .error .isDirectory
  | .ok (.program _) => .error .denied
  | .error .missing =>
    match tree.entry? (placeOf path).dropLast with
    | some .directory => .ok { tree with entries := (placeOf path, .file text) :: tree.entries }
    | _ => .error .missing
  | .ok (.file _) =>
    if placeOf path = ["dev", "null"] then .ok tree
    else .ok { tree with entries := (placeOf path, .file text) :: tree.entries }
  | .error fault => .error fault

end FileTree

end ScriptFlow
