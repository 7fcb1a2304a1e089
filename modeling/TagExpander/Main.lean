/-
  TagExpander.Main — the program.
-/

import TagExpander.CommandLine.Run

namespace TagExpander

/-- The fault of an operation of the system. -/
def FileFault.ofSystem : IO.Error → FileFault
  | .noFileOrDirectory .. => .notFound
  | .alreadyExists .. => .alreadyExists
  | .permissionDenied .. => .permissionDenied
  | .inappropriateType _ code _ => if code == 20 then .notDirectory else .isDirectory
  | e => .other (toString e)

/-- The result of an operation of the system, or its fault. -/
def attempt {α : Type} (action : IO α) : IO (Except FileFault α) := do
  match ← action.toBaseIO with
  | .ok a => pure (.ok a)
  | .error e => pure (.error (.ofSystem e))

/-- Does a path of the system lead to anything, and to a regular file? -/
def lookAt (path : Path) : IO (Bool × Bool) := do
  match ← attempt IO.currentDir with
  | .error _ => pure (false, false)
  | .ok dir =>
    match ← attempt (dir / path.toString).metadata with
    | .error _ => pure (false, false)
    | .ok found => pure (true, found.type matches .file)

/-- The shell that the program runs in. -/
def systemShell : Shell IO where
  read path := do
    match ← attempt (IO.FS.readBinFile path.toString) with
    | .error fault => pure (.error fault)
    | .ok bytes =>
      match String.fromUTF8? bytes with
      | some text => pure (.ok text)
      | none => pure (.error .notText)
  canonical path := do
    match ← attempt (IO.FS.realPath path.toString) with
    | .error _ => pure none
    | .ok target => pure (some (.ofString target.toString))
  present path := return (← lookAt path).1
  isFile path := return (← lookAt path).2
  currentDir := do
    match ← attempt IO.currentDir with
    | .error _ => pure none
    | .ok dir => pure (some (.ofString dir.toString))
  environment name := IO.getEnv name
  write path text := attempt (IO.FS.writeFile path.toString text)

end TagExpander

/-- Runs the program on the words of its command line. -/
def main (words : List String) : IO UInt32 := do
  let exit ← TagExpander.CommandLine.run TagExpander.systemShell words
  let out ← IO.getStdout
  out.putStr exit.out
  out.flush
  (← IO.getStderr).putStr exit.err
  pure exit.code.toUInt32
