/-!
The machine as the program sees it: files that can be read or not, and other programs that start or
not, take an input or not, and end in their own way. What a machine really does with a path or with
a program is its own business; whatever the program computes is a function of these answers.
-/

namespace ScriptFlow

/-- Why a file cannot be used. -/
inductive FileFault where
  /-- Nothing is there. -/
  | missing
  /-- A step on the way is no directory. -/
  | notDirectory
  /-- A directory is there instead of a file. -/
  | isDirectory
  /-- What is there may not be run. -/
  | denied
  /-- What may be run there has no known form. -/
  | unknownForm
  /-- The path, or a name in it, has too many bytes. -/
  | tooLong
  /-- Too many scripts are run by scripts. -/
  | tooManyLevels
  /-- The path holds a zero character. -/
  | zeroInPath
  /-- What is there is no text. -/
  | notText
  deriving DecidableEq

/-- The message for a fault. -/
def FileFault.message : FileFault → String
  | .missing => "No such file or directory (os error 2)"
  | .notDirectory => "Not a directory (os error 20)"
  | .isDirectory => "Is a directory (os error 21)"
  | .denied => "Permission denied (os error 13)"
  | .unknownForm => "Exec format error (os error 8)"
  | .tooLong => "File name too long (os error 36)"
  | .tooManyLevels => "Too many levels of symbolic links (os error 40)"
  | .zeroInPath => "nul byte found in provided data"
  | .notText => "stream did not contain valid UTF-8"

/-- How a program ends. -/
inductive Ending where
  /-- By itself, with a status. -/
  | exited (status : Nat)
  /-- By a signal. -/
  | killed
  deriving DecidableEq

/-- What has come of handing a program its input and reading its output when the waiting ends. -/
inductive Exchange where
  /-- All of the input was written, and these bytes are all of the output. -/
  | finished (output : ByteArray)
  /-- The program was gone before all of the input was written. -/
  | broken
  /-- It is not over yet. -/
  | pending

/-- A program that has been started with an input. -/
structure Run where
  /-- What has come of its input and output after a number of milliseconds. -/
  exchange : Nat → Exchange
  /-- How it ends. -/
  ending : Ending

/-- What comes of an attempt to start a program. -/
inductive Launch where
  /-- It runs. -/
  | started (run : Run)
  /-- It does not. -/
  | refused (fault : FileFault)

/-- A machine. -/
structure Machine where
  /-- The text of the file at a path. -/
  read : (path : String) → Except FileFault String
  /-- What comes of starting the layout program at a path with an input. -/
  launch : (input path : String) → Launch

end ScriptFlow
