/-
  TagExpander.Shell — what is asked of the surroundings.

  A pass over a text only reads files; a command asks for the rest of its surroundings,
  too.
-/

import TagExpander.Path.Basic

namespace TagExpander

/-! ## §1. Faults -/

/-- Why a file operation fails. -/
inductive FileFault where
  | notFound
  | alreadyExists
  | notDirectory
  | isDirectory
  | nameTooLong
  | tooManyLinks
  | permissionDenied
  /-- The path holds a character that no file name can hold. -/
  | badName
  /-- The file is not UTF-8 text. -/
  | notText
  /-- Any other failure, in its own words. -/
  | other (text : String)
deriving DecidableEq, Inhabited

/-- The wording of a system error: its description and its number. -/
def systemError (description : String) (number : Nat) : String :=
  description ++ " (os error " ++ toString number ++ ")"

/-- The wording of a file fault. -/
def FileFault.message : FileFault → String
  | .notFound => systemError "No such file or directory" 2
  | .permissionDenied => systemError "Permission denied" 13
  | .alreadyExists => systemError "File exists" 17
  | .notDirectory => systemError "Not a directory" 20
  | .isDirectory => systemError "Is a directory" 21
  | .nameTooLong => systemError "File name too long" 36
  | .tooManyLinks => systemError "Too many levels of symbolic links" 40
  | .badName => "file name contained an unexpected NUL byte"
  | .notText => "stream did not contain valid UTF-8"
  | .other text => text

/-! ## §2. Requests -/

/-- Reading files, in a monad in which that is done. -/
structure Files (m : Type → Type) where
  /-- The text of a file. -/
  read : Path → m (Except FileFault String)
  /-- The absolute form of a path, with `..` and all links resolved, if it exists. -/
  canonical : Path → m (Option Path)

/-- The surroundings of a command, in a monad in which they act: the file system, the
    working directory and the environment variables. -/
structure Shell (m : Type → Type) extends Files m where
  /-- Does the path lead to anything? -/
  present : Path → m Bool
  /-- Does the path lead to a regular file? -/
  isFile : Path → m Bool
  /-- The working directory. -/
  currentDir : m (Option Path)
  /-- The value of an environment variable, if it is set. -/
  environment : String → m (Option String)
  /-- Makes a text the content of a file. -/
  write : Path → String → m (Except FileFault Unit)

end TagExpander
