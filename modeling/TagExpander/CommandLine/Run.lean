/-
  TagExpander.CommandLine.Run — the command `expand`.

  The settings are loaded, the file and its metadata are read, the tags are expanded,
  and the text is written, to a file or to the standard output.  Whatever fails, fails
  before anything is written.
-/

import TagExpander.CommandLine.Options
import TagExpander.Handler.Builtin
import TagExpander.Yaml.Value

namespace TagExpander.CommandLine

/-- What a program leaves when it ends: its exit code, and what it wrote to the standard
    output and to the standard error output. -/
structure Exit where
  code : Nat
  out : String
  err : String
deriving DecidableEq, Inhabited

/-! ## §1. Faults -/

/-- Why the command fails. -/
inductive Fault where
  /-- The settings cannot be loaded. -/
  | settings (cause : Settings.Fault)
  /-- A file cannot be read. -/
  | unreadable (path : Path) (cause : FileFault)
  /-- A metadata file does not hold metadata. -/
  | badMetadata (path : Path)
  /-- The tags cannot be expanded. -/
  | expansion (cause : Failure)
  /-- The result cannot be written. -/
  | unwritable (cause : FileFault)
deriving DecidableEq, Inhabited

/-- The wording of a fault. -/
def Fault.message : Fault → String
  | .settings cause => cause.message
  | .unreadable path cause => "Failed to read " ++ path.toString ++ ": " ++ cause.message
  | .badMetadata path =>
    "Invalid metadata file " ++ path.toString ++ ": the file does not hold a mapping"
  | .expansion cause => cause.message
  | .unwritable cause => cause.message

/-! ## §2. The command -/

variable {m : Type → Type} [Monad m]

/-- Reads a file, or fails. -/
def readFile (shell : Shell m) (path : Path) : ExceptT Fault m String := do
  match ← shell.read path with
  | .ok text => pure text
  | .error cause => throw (.unreadable path cause)

/-- The metadata of a file; a blank file holds none. -/
def readMetadata (shell : Shell m) (path : Path) : ExceptT Fault m Metadata := do
  let text ← readFile shell path
  if Text.allBlank text.toList then pure .empty
  else
    match Yaml.parse? text with
    | some fields => pure (.ofFields fields)
    | none => throw (.badMetadata path)

/-- The metadata to start with: those of the file, overwritten by the entries. -/
def Options.metadata (shell : Shell m) (o : Options) : ExceptT Fault m Metadata := do
  let base ← match o.metaFile with
    | some path => readMetadata shell path
    | none => pure .empty
  pure (base.insertAll o.entries)

/-- The expander for a file under settings. -/
def expander (shell : Shell m) (settings : Settings) (file : Path) : Expander m Unit :=
  ⟨Builtin.registry, shell.toFiles, settings.sourceDir, some file, settings.maxDepth⟩

/-- The expanded document. -/
def Options.expand (shell : Shell m) (o : Options) : ExceptT Fault m Document := do
  let settings ← match ← (Settings.load shell o.config (some o.overrides) : m _) with
    | .ok settings => pure settings
    | .error cause => throw (.settings cause)
  let text ← readFile shell o.file
  let metadata ← o.metadata shell
  let outcome ← ((expander shell settings o.file).process ⟨text, metadata⟩ .clear : m _)
  match outcome.result with
  | .ok document => pure document
  | .error cause => throw (.expansion cause)

/-- Writes the text of a document; gives what is printed instead, and the report. -/
def Options.write (shell : Shell m) (o : Options) (colours : Bool) (d : Document) :
    ExceptT Fault m (String × String) := do
  match o.output with
  | none => pure (d.content, "")
  | some path =>
    match ← shell.write path d.content with
    | .ok () => pure ("", Style.success.paint colours ("Wrote " ++ path.toString) ++ "\n")
    | .error cause => throw (.unwritable cause)

/-- The metadata of a document as they are printed. -/
def metadataReport (colours : Bool) (d : Document) : String :=
  Style.heading.paint colours "Metadata:" ++ "\n" ++ d.metadata.renderIndented ++ "\n"

/-- Runs the command. -/
def Options.run (shell : Shell m) (o : Options) : m Exit := do
  let colours ← reportColours shell
  let steps : ExceptT Fault m Exit := do
    let d ← o.expand shell
    let (out, report) ← o.write shell colours d
    pure ⟨0, out, report ++ if o.printMetadata then metadataReport colours d else ""⟩
  match ← steps.run with
  | .ok exit => pure exit
  | .error fault =>
    pure ⟨1, "", Style.failure.paint colours ("Error: " ++ fault.message) ++ "\n"⟩

/-! ## §3. The program -/

/-- What is printed where there is nothing to run. -/
def Stop.exit (colours : Bool) : Stop → Exit
  | .help topic => ⟨0, topic.text, ""⟩
  | .version => ⟨0, versionLine, ""⟩
  | .noCommand => ⟨2, "", Topic.program.text⟩
  | .fault cause => ⟨2, "", cause.report colours⟩

/-- Runs the program on the words of its command line. -/
def run (shell : Shell m) (words : List String) : m Exit := do
  match Options.read (← shell.environment "RW_META_FILE") words with
  | .ok options => options.run shell
  | .error stop => return stop.exit (← usageColours shell)

end TagExpander.CommandLine
