/-
  TagExpander.CommandLine.Usage — what may stand in a command line.

      expand [OPTIONS] <FILE>
-/

import TagExpander.CommandLine.Style
import TagExpander.CommandLine.Terminal

namespace TagExpander.CommandLine

/-! ## §1. Parameters -/

/-- A parameter of a command line: the file, or an option with a name. -/
inductive Param where
  | file
  | config
  | sourceDir
  | maxDepth
  | entry
  | metaFile
  | output
  | printMetadata
  | verbose
  | help
  | version
deriving DecidableEq, Inhabited

namespace Param

/-- The long name of an option. -/
def long : Param → String
  | .file => ""
  | .config => "config"
  | .sourceDir => "source-dir"
  | .maxDepth => "max-depth"
  | .entry => "meta"
  | .metaFile => "meta-file"
  | .output => "output"
  | .printMetadata => "print-metadata"
  | .verbose => "verbose"
  | .help => "help"
  | .version => "version"

/-- The short name of an option. -/
def short? : Param → Option Char
  | .config => some 'c'
  | .sourceDir => some 's'
  | .entry => some 'm'
  | .output => some 'o'
  | .verbose => some 'v'
  | .help => some 'h'
  | .version => some 'V'
  | _ => none

/-- The name of the value of a parameter; flags have no value. -/
def valueName? : Param → Option String
  | .file => some "FILE"
  | .config => some "CONFIG"
  | .sourceDir => some "SOURCE_DIR"
  | .maxDepth => some "MAX_DEPTH"
  | .entry => some "KEY=VALUE"
  | .metaFile => some "META_FILE"
  | .output => some "OUTPUT"
  | _ => none

/-- A parameter as it is shown. -/
def shown : Param → String
  | .file => "<FILE>"
  | p =>
    match p.valueName? with
    | some name => "--" ++ p.long ++ " <" ++ name ++ ">"
    | none => "--" ++ p.long

/-- The options in front of a command. -/
def general : List Param :=
  [.help, .version]

/-- The options of the command. -/
def ofExpand : List Param :=
  [.config, .sourceDir, .maxDepth, .entry, .metaFile, .output, .printMetadata, .verbose, .help]

/-- The option of a long name. -/
def ofLong? (options : List Param) (name : String) : Option Param :=
  options.find? fun p => p.long == name

/-- The option of a short name. -/
def ofShort? (options : List Param) (name : Char) : Option Param :=
  options.find? fun p => p.short? == some name

end Param

/-! ## §2. Faults -/

/-- Why a command line is not understood. -/
inductive UsageFault where
  /-- There is no such command. -/
  | unknownCommand (name : String)
  /-- A word that has no place. -/
  | unexpected (word : String)
  /-- A parameter without its value, or with an empty one where that is refused. -/
  | noValue (param : Param)
  /-- A parameter that is given a second time. -/
  | repeated (param : Param)
  /-- A flag with a value. -/
  | unwantedValue (param : Param) (value : String)
  /-- A value that is refused for a reason. -/
  | invalid (param : Param) (value reason : String)
  /-- The file is not given. -/
  | noFile
deriving DecidableEq, Inhabited

namespace UsageFault

/-- The wording of a fault, in colours. -/
def message (f : UsageFault) : String :=
  let culprit (text : String) : String := "'" ++ Style.culprit.painted text ++ "'"
  let literal (text : String) : String := "'" ++ Style.literal.painted text ++ "'"
  match f with
  | .unknownCommand name => "unrecognized subcommand " ++ culprit name
  | .unexpected word => "unexpected argument " ++ culprit word ++ " found"
  | .noValue param => "a value is required for " ++ culprit param.shown ++ " but none was supplied"
  | .repeated param => "the argument " ++ culprit param.shown ++ " cannot be used multiple times"
  | .unwantedValue param value =>
    "unexpected value " ++ culprit value ++ " for " ++ literal param.shown ++
      " found; no more were expected"
  | .invalid param value reason =>
    "invalid value " ++ culprit value ++ " for " ++ literal param.shown ++ ": " ++ reason
  | .noFile => "the following required arguments were not provided:\n  " ++ Param.file.shown

/-- The report of a fault.  Without colours it is written as for no terminal, and so
    are the words of the command line that it quotes. -/
def report (colours : Bool) (f : UsageFault) : String :=
  let text := Style.alarm.painted "error:" ++ " " ++ f.message ++
    "\n\nFor more information, try '--help'.\n"
  if colours then text else Terminal.shown text

end UsageFault

/-! ## §3. Help -/

/-- What help is about. -/
inductive Topic where
  | program
  | expand
  | help
deriving DecidableEq, Inhabited

/-- The version of the program. -/
def versionLine : String := "rw 0.1.24\n"

/-- The lines of a help text. -/
def Topic.lines : Topic → List String
  | .program =>
    ["Shortcode expansion engine - CLI",
     "",
     "Usage: rw <COMMAND>",
     "",
     "Commands:",
     "  expand  Expand shortcodes in a document",
     "  help    Print this message or the help of the given subcommand(s)",
     "",
     "Options:",
     "  -h, --help     Print help",
     "  -V, --version  Print version"]
  | .expand =>
    ["Expand shortcodes in a document",
     "",
     "Usage: rw expand [OPTIONS] <FILE>",
     "",
     "Arguments:",
     "  <FILE>  Document to expand",
     "",
     "Options:",
     "  -c, --config <CONFIG>          Path to configuration file (default: auto-discover rw.toml)",
     "  -s, --source-dir <SOURCE_DIR>  Base directory for included files (overrides config)",
     "      --max-depth <MAX_DEPTH>    Maximum shortcode expansion depth (overrides config)",
     "  -m, --meta <KEY=VALUE>         Document metadata entry; values are parsed as JSON, " ++
       "falling back to a string",
     "      --meta-file <META_FILE>    YAML file with document metadata (applied before --meta) " ++
       "[env: RW_META_FILE=]",
     "  -o, --output <OUTPUT>          Write expanded content to this file instead of stdout",
     "      --print-metadata           Print the final metadata as JSON to stderr",
     "  -v, --verbose                  Enable verbose output (debug logs for every pass)",
     "  -h, --help                     Print help"]
  | .help =>
    ["Print this message or the help of the given subcommand(s)",
     "",
     "Usage: rw help [COMMAND]...",
     "",
     "Arguments:",
     "  [COMMAND]...  Print help for the subcommand(s)"]

/-- A help text. -/
def Topic.text (t : Topic) : String :=
  String.join (t.lines.map (· ++ "\n"))

end TagExpander.CommandLine
