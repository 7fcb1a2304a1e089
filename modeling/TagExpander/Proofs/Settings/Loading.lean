/-
  TagExpander.Proofs.Settings.Loading — settings are loaded without a trace.

  The settings are loaded in a monad in which the surroundings could change.  In a tree
  they do not: loading only looks at it, so it gives the result that it has where the tree
  stays as it is (`still`), and leaves the tree alone.

  Main results:
    * `Answers.bind` — computations that only look may follow one another.
    * `answers_load` — loading settings only looks.
    * `loadBase_some`, `loadBase_none` — which file is loaded.
-/
import TagExpander.FileTree
import TagExpander.Settings.Load

namespace TagExpander

/-! ## §1. Trees that stay as they are. -/

namespace FileTree

/-- The surroundings of a tree that stays as it is. -/
def still (t : FileTree) : Shell Id where
  read path := t.read path
  canonical path := t.canonical path
  present path := t.present path
  isFile path := t.isFile path
  currentDir := some (pathOf t.current)
  environment name := t.variableValue? name
  write path text := (t.write path text).map fun _ => ()

/-- In the tree, the computation gives this result and changes nothing. -/
def Answers {α : Type} (t : FileTree) (x : StateM FileTree α) (a : Id α) : Prop :=
  x.run t = (a.run, t)

namespace Answers

variable {t : FileTree} {α β : Type}

theorem pure (a : α) : Answers t (Pure.pure a) (Pure.pure a) :=
  rfl

theorem bind {x : StateM FileTree α} {a : Id α} {f : α → StateM FileTree β} {g : α → Id β}
    (hx : Answers t x a) (hf : ∀ a, Answers t (f a) (g a)) : Answers t (x >>= f) (a >>= g) := by
  show (x >>= f).run t = ((g a.run).run, t)
  rw [StateT.run_bind, show x.run t = Pure.pure (a.run, t) from hx, pure_bind]
  exact hf a.run

end Answers

end FileTree

/-! ## §2. Loading. -/

namespace Settings

open FileTree (Answers)

variable (t : FileTree)

theorem answers_resolve (ps : List Piece) :
    t.Answers (resolve FileTree.shell.environment ps) (resolve t.still.environment ps) := by
  induction ps with
  | nil => exact .pure _
  | cons p ps ih =>
      cases p with
      | text cs => exact ih.bind fun rest => .pure _
      | reference name fallback =>
          have hvalue : t.Answers (FileTree.shell.environment name)
              (t.still.environment name) := rfl
          refine hvalue.bind fun value => ?_
          cases value.or fallback with
          | none => exact .pure _
          | some value => exact ih.bind fun rest => .pure _

theorem answers_expandReferences (text : String) :
    t.Answers (expandReferences FileTree.shell.environment text)
      (expandReferences t.still.environment text) := by
  unfold expandReferences
  split
  · exact (answers_resolve t _).bind fun expanded => .pure _
  · exact .pure _

theorem answers_expandStored (stored : Stored) :
    t.Answers (expandStored FileTree.shell stored) (expandStored t.still stored) := by
  unfold expandStored
  cases stored.sourceDir with
  | none => exact .pure _
  | some dir =>
      refine (answers_expandReferences t dir).bind fun expanded => ?_
      cases expanded with
      | error name => exact .pure _
      | ok dir => exact .pure _

theorem answers_loadFile (path : Path) :
    t.Answers (loadFile FileTree.shell path) (loadFile t.still path) := by
  have hread : t.Answers (FileTree.shell.read path) (t.still.read path) := rfl
  refine hread.bind fun text => ?_
  cases text with
  | error cause => exact .pure _
  | ok text =>
      dsimp only
      cases Stored.parse? text with
      | none => exact .pure _
      | some stored =>
          refine (answers_expandStored t stored).bind fun expanded => ?_
          cases expanded with
          | error fault => exact .pure _
          | ok stored => exact .pure _

theorem answers_firstFile? (paths : List Path) :
    t.Answers (firstFile? FileTree.shell paths) (firstFile? t.still paths) := by
  induction paths with
  | nil => exact .pure _
  | cons path paths ih =>
      have hfile : t.Answers (FileTree.shell.isFile path) (t.still.isFile path) := rfl
      refine hfile.bind fun found => ?_
      cases found with
      | true => exact .pure _
      | false => exact ih

theorem answers_loadBase (named : Option Path) :
    t.Answers (loadBase FileTree.shell named) (loadBase t.still named) := by
  cases named with
  | some path =>
      have hpresent : t.Answers (FileTree.shell.present path) (t.still.present path) := rfl
      refine hpresent.bind fun found => ?_
      cases found with
      | true => exact answers_loadFile t path
      | false => exact .pure _
  | none =>
      have hdir : t.Answers FileTree.shell.currentDir t.still.currentDir := rfl
      refine hdir.bind fun dir => ?_
      cases dir with
      | none => exact .pure _
      | some dir =>
          refine (answers_firstFile? t _).bind fun path => ?_
          cases path with
          | none => exact .pure _
          | some path => exact answers_loadFile t path

/-- **Loading settings only looks at the tree.** -/
theorem answers_load (named : Option Path) (overrides : Option Overrides) :
    t.Answers (load FileTree.shell named overrides) (load t.still named overrides) := by
  refine (answers_loadBase t named).bind fun result => ?_
  cases result with
  | error fault => exact .pure _
  | ok settings =>
      cases overrides with
      | none => exact .pure _
      | some o => exact .pure _

/-! ## §3. Which file is loaded. -/

/-- The file that is named. -/
theorem loadBase_some (shell : Shell Id) (path : Path) :
    (loadBase shell (some path)).run =
      if (shell.present path).run then (loadFile shell path).run else .error (.notFound path) := by
  show (if (shell.present path).run then loadFile shell path else _ : Id _).run = _
  split <;> rfl

/-- The file that is found. -/
theorem loadBase_none {shell : Shell Id} {dir : Path} (hdir : shell.currentDir = some dir) :
    (loadBase shell none).run =
      match (discover? shell dir).run with
      | some path => (loadFile shell path).run
      | none => .ok (defaultsFrom dir) := by
  have hdir' : shell.currentDir = pure (some dir) := hdir
  rw [loadBase, hdir', pure_bind]
  show (match (discover? shell dir).run with
    | some path => loadFile shell path
    | none => _ : Id _).run = _
  cases (discover? shell dir).run <;> rfl

end Settings

end TagExpander
