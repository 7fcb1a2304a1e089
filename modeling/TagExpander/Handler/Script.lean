/-
  TagExpander.Handler.Script — computations that ask their surroundings.

  A handler reaches the world only through requests: read a file, resolve a path,
  ask the pass to stop, see whether it was asked to.  A script is the tree of its
  requests; running it answers them one after the other and notes what was read.

  Main results:
    * `bind_done`, `bind_assoc` — scripts compose as programs do: they are a lawful monad.
-/

import TagExpander.Shell

namespace TagExpander

/-! ## §1. Stop signals -/

/-- A flag that asks running passes to stop. -/
inductive StopSignal where
  /-- No flag is attached: nobody can ask. -/
  | absent
  /-- Nobody has asked yet. -/
  | clear
  /-- Somebody has asked. -/
  | raised
deriving DecidableEq, Inhabited

/-- Was the signal raised? -/
def StopSignal.isRaised : StopSignal → Bool
  | .raised => true
  | _ => false

/-- Raises the signal, if there is one. -/
def StopSignal.raise : StopSignal → StopSignal
  | .absent => .absent
  | _ => .raised

/-! ## §2. Scripts -/

/-- A computation that makes requests and ends in a result. -/
inductive Script (α : Type) where
  /-- The end. -/
  | done (result : α)
  /-- Reads a file. -/
  | read (path : Path) (next : Except FileFault String → Script α)
  /-- Resolves a path to its absolute form without links. -/
  | canonical (path : Path) (next : Option Path → Script α)
  /-- Raises the stop signal. -/
  | stop (next : Script α)
  /-- Sees whether the stop signal is raised. -/
  | isStopped (next : Bool → Script α)

namespace Script

variable {α β γ : Type}

instance [Inhabited α] : Inhabited (Script α) :=
  ⟨.done default⟩

/-- Goes on with another script. -/
def bind (f : α → Script β) : Script α → Script β
  | .done a => f a
  | .read path next => .read path fun answer => (next answer).bind f
  | .canonical path next => .canonical path fun answer => (next answer).bind f
  | .stop next => .stop (next.bind f)
  | .isStopped next => .isStopped fun answer => (next answer).bind f

instance : Monad Script where
  pure := .done
  bind s f := s.bind f

/-- A script followed by nothing. -/
theorem bind_done (s : Script α) : s.bind .done = s := by
  induction s with
  | done => rfl
  | read path next ih => exact congrArg (Script.read path) (funext ih)
  | canonical path next ih => exact congrArg (Script.canonical path) (funext ih)
  | stop next ih => exact congrArg Script.stop ih
  | isStopped next ih => exact congrArg Script.isStopped (funext ih)

/-- Three scripts in a row. -/
theorem bind_assoc (s : Script α) (f : α → Script β) (g : β → Script γ) :
    (s.bind f).bind g = s.bind fun a => (f a).bind g := by
  induction s with
  | done => rfl
  | read path next ih => exact congrArg (Script.read path) (funext ih)
  | canonical path next ih => exact congrArg (Script.canonical path) (funext ih)
  | stop next ih => exact congrArg Script.stop ih
  | isStopped next ih => exact congrArg Script.isStopped (funext ih)

instance : LawfulMonad Script :=
  .mk' Script bind_done (fun _ _ => rfl) bind_assoc

/-! ## §3. Running -/

/-- A file that was read, with the answer. -/
structure Reading where
  path : Path
  answer : Except FileFault String

/-- What is left when a script has run. -/
structure Ran (α : Type) where
  /-- The result of the script. -/
  result : α
  /-- The stop signal afterwards. -/
  signal : StopSignal
  /-- What was read, in order. -/
  readings : List Reading

/-- Runs a script: files are read through `files`, and the stop signal is passed
    along. -/
def run {m : Type → Type} [Monad m] (files : Files m) (signal : StopSignal) :
    Script α → m (Ran α)
  | .done a => pure ⟨a, signal, []⟩
  | .read path next => do
    let answer ← files.read path
    let ran ← (next answer).run files signal
    pure { ran with readings := ⟨path, answer⟩ :: ran.readings }
  | .canonical path next => do
    let answer ← files.canonical path
    (next answer).run files signal
  | .stop next => next.run files signal.raise
  | .isStopped next => (next signal.isRaised).run files signal

end Script

end TagExpander
