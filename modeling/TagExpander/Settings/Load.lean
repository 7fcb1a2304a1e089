/-
  TagExpander.Settings.Load — the settings of a run.

  The settings come from a file: one that is named, or else the file of the usual name
  in the working directory or in the nearest directory above it.  Without a file there
  are defaults.  What the command line sets overrides the rest.  Relative directories
  in a file start from the directory of the file.

  Main results:
    * `validate_eq_ok_iff` — which settings are valid.
-/

import TagExpander.Shell
import TagExpander.Settings.Reference
import TagExpander.Settings.Stored
import TagExpander.Pass.Expand

namespace TagExpander

/-! ## §1. Settings -/

/-- The settings of a run. -/
structure Settings where
  /-- The directory that included files lie in. -/
  sourceDir : Path
  /-- How deeply handler output may be nested. -/
  maxDepth : Nat
  /-- The file that the settings come from, if there is one. -/
  file : Option Path
deriving DecidableEq, Inhabited

namespace Settings

/-- What the command line sets. -/
structure Overrides where
  sourceDir : Option Path
  maxDepth : Option Nat
deriving DecidableEq, Inhabited

/-- What makes settings invalid. -/
inductive Defect where
  | noSourceDir
  | noDepth
  | depthAbove (limit : Nat)
deriving DecidableEq, Inhabited

/-- The wording of a defect. -/
def Defect.message : Defect → String
  | .noSourceDir => "docs.source_dir cannot be empty"
  | .noDepth => "shortcodes.max_depth must be greater than 0"
  | .depthAbove limit => "shortcodes.max_depth cannot exceed " ++ toString limit

/-- Why settings cannot be loaded. -/
inductive Fault where
  /-- The file that was named does not exist. -/
  | notFound (path : Path)
  /-- The file cannot be read. -/
  | unreadable (cause : FileFault)
  /-- The file does not hold settings. -/
  | unparsable
  /-- The settings are invalid. -/
  | invalid (defect : Defect)
  /-- A variable is referred to in a field and not set. -/
  | unset (field name : String)
deriving DecidableEq, Inhabited

/-- The wording of a fault. -/
def Fault.message : Fault → String
  | .notFound path => "Configuration file not found: " ++ path.toString
  | .unreadable cause => "I/O error: " ++ cause.message
  | .unparsable => "TOML parse error: the file does not hold settings"
  | .invalid defect => "Configuration error: " ++ defect.message
  | .unset field name =>
    "Environment variable error in " ++ field ++ ": $\x7b" ++ name ++ "\x7d not set"

/-! ## §2. Validity -/

/-- The largest limit of nesting. -/
def maxDepthLimit : Nat := 1000

/-- Succeeds if the settings are valid. -/
def validate (s : Settings) : Except Fault Unit :=
  if s.sourceDir.chars.isEmpty then .error (.invalid .noSourceDir)
  else if s.maxDepth = 0 then .error (.invalid .noDepth)
  else if maxDepthLimit < s.maxDepth then .error (.invalid (.depthAbove maxDepthLimit))
  else .ok ()

/-- Settings are valid if there is a source directory and the limit of nesting is
    between 1 and 1000. -/
theorem validate_eq_ok_iff {s : Settings} :
    s.validate = .ok () ↔ s.sourceDir.chars ≠ [] ∧ 1 ≤ s.maxDepth ∧ s.maxDepth ≤ 1000 := by
  unfold validate maxDepthLimit
  repeat' split
  all_goals simp_all
  all_goals omega

/-! ## §3. Where settings come from -/

/-- The usual name of a settings file. -/
def fileName : Path := .ofString "rw.toml"

/-- The source directory, where none is chosen. -/
def defaultSourceDir : Path := .ofString "docs"

/-- The settings without a file, seen from a directory. -/
def defaultsFrom (base : Path) : Settings :=
  ⟨base.join defaultSourceDir, defaultMaxDepth, none⟩

/-- The settings without a file, seen from wherever they are used. -/
def defaults : Settings :=
  defaultsFrom (.ofString ".")

/-- The settings with those of the command line in their place. -/
def override (s : Settings) (o : Overrides) : Settings :=
  { s with sourceDir := o.sourceDir.getD s.sourceDir, maxDepth := o.maxDepth.getD s.maxDepth }

variable {m : Type → Type} [Monad m]

/-- The first of the paths that leads to a regular file. -/
def firstFile? (shell : Shell m) : List Path → m (Option Path)
  | [] => pure none
  | path :: paths => do
    if ← shell.isFile path then pure (some path) else firstFile? shell paths

/-- The settings file of a directory or of the nearest one above it. -/
def discover? (shell : Shell m) (start : Path) : m (Option Path) :=
  firstFile? shell (start.ancestors.map (·.join fileName))

/-- The settings that a file holds, checked. -/
def ofStored (path : Path) (stored : Stored) : Settings :=
  let base := path.parent?.getD (.ofString ".")
  ⟨base.join ((stored.sourceDir.map Path.ofString).getD defaultSourceDir),
    stored.maxDepth.getD defaultMaxDepth, some path⟩

/-- Replaces the references in the source directory. -/
def expandStored (shell : Shell m) (stored : Stored) : m (Except Fault Stored) :=
  match stored.sourceDir with
  | none => pure (.ok stored)
  | some dir => do
    match ← expandReferences shell.environment dir with
    | .ok dir => pure (.ok { stored with sourceDir := some dir })
    | .error name => pure (.error (.unset "docs.source_dir" name))

/-- Loads and checks the settings of a file. -/
def loadFile (shell : Shell m) (path : Path) : m (Except Fault Settings) := do
  match ← shell.read path with
  | .error cause => pure (.error (.unreadable cause))
  | .ok text =>
    match Stored.parse? text with
    | none => pure (.error .unparsable)
    | some stored =>
      match ← expandStored shell stored with
      | .error fault => pure (.error fault)
      | .ok stored =>
        let settings := ofStored path stored
        pure (settings.validate.map fun _ => settings)

/-- Loads the settings of the file that is named, or of the one that is found, or the
    defaults. -/
def loadBase (shell : Shell m) (named : Option Path) : m (Except Fault Settings) := do
  match named with
  | some path =>
    if ← shell.present path then loadFile shell path else pure (.error (.notFound path))
  | none =>
    match ← shell.currentDir with
    | none => pure (.ok (defaultsFrom ⟨[]⟩))
    | some dir =>
      match ← discover? shell dir with
      | some path => loadFile shell path
      | none => pure (.ok (defaultsFrom dir))

/-- Loads the settings of a run.  Overrides are put in place last, and the result is
    checked once more. -/
def load (shell : Shell m) (named : Option Path) (overrides : Option Overrides) :
    m (Except Fault Settings) := do
  match ← loadBase shell named, overrides with
  | .ok settings, some o =>
    let settings := settings.override o
    pure (settings.validate.map fun _ => settings)
  | result, _ => pure result

end Settings

end TagExpander
