/-!
The commands of shell scripts. A word is made of parts that are replaced when the command runs; the
scripts and expressions inside a word are kept as they are written and read when they are needed.
-/

namespace ScriptFlow.Shell

/-- What is done with the value of a parameter. -/
inductive Modifier where
  /-- It is used as it is. -/
  | plain
  /-- Its length is used. -/
  | length
  /-- A word is used if there is none, or also if it is empty. -/
  | fallback (alsoEmpty : Bool) (word : List Char)
  /-- A word is used if there is one, or only if it is not empty. -/
  | alternative (alsoEmpty : Bool) (word : List Char)
  /-- A word is used, and becomes the value, if there is none or an empty one. -/
  | assign (word : List Char)
  /-- The script ends if there is none or an empty one. -/
  | needed
  /-- What a pattern matches at the start is cut off, as little or as much as possible. -/
  | cutStart (longest : Bool) (pattern : List Char)
  /-- What a pattern matches at the end is cut off, as little or as much as possible. -/
  | cutEnd (longest : Bool) (pattern : List Char)

/-- A part of a word. -/
inductive Part where
  /-- Characters that stand for themselves. -/
  | text (chars : List Char) (quoted : Bool)
  /-- The value of a parameter. -/
  | parameter (name : List Char) (modifier : Modifier) (quoted : Bool)
  /-- The output of a script. -/
  | output (script : List Char) (quoted : Bool)
  /-- The value of an expression. -/
  | value (expression : List Char) (quoted : Bool)

/-- A word of a command. -/
abbrev Word : Type := List Part

/-- The characters of a word that stands for itself and has no quotes. -/
def Word.plain? : Word → Option (List Char)
  | [.text chars false] => some chars
  | _ => none

/-- Where a stream leads to or comes from. -/
inductive RedirectKind where
  /-- It comes from a file. -/
  | source
  /-- It leads to a file. -/
  | target
  /-- It leads to the end of a file. -/
  | append
  /-- It is the same as another stream. -/
  | same
  /-- It comes from a text in the script. -/
  | document
  deriving DecidableEq

/-- A redirection of a stream. -/
structure Redirect where
  /-- The number of the stream. -/
  stream : Nat
  /-- What becomes of it. -/
  kind : RedirectKind
  /-- The file, the other stream or the text. -/
  word : Word

/-- A command. -/
inductive Command where
  /-- Nothing. -/
  | skip
  /-- Assignments, and words that name a command and its arguments. -/
  | simple (assignments : List (List Char × Word)) (words : List Word) (redirects : List Redirect)
  /-- One command after another. -/
  | sequence (first second : Command)
  /-- A command that the script does not wait for. -/
  | background (body : Command)
  /-- A command whose output is the input of another. -/
  | pipe (first second : Command)
  /-- A command, and if it succeeds another. -/
  | both (first second : Command)
  /-- A command, and if it fails another. -/
  | either (first second : Command)
  /-- A command that succeeds if another fails. -/
  | negated (body : Command)
  /-- One of two commands, as a condition says. -/
  | branch (condition yes no : Command)
  /-- A command that is repeated as long as a condition succeeds, or until it does. -/
  | loop (untilSuccess : Bool) (condition body : Command)
  /-- A command for each of several words, or for each argument of the script. -/
  | forEach (name : List Char) (words : Option (List Word)) (body : Command)
  /-- A command if a word matches one of several patterns, otherwise another. -/
  | arm (word : Word) (patterns : List Word) (body rest : Command)
  /-- A command with redirections. -/
  | redirected (body : Command) (redirects : List Redirect)
  /-- A command that leaves the rest of the script as it is. -/
  | subshell (body : Command)
  /-- A command under a name. -/
  | define (name : List Char) (body : Command)

end ScriptFlow.Shell
