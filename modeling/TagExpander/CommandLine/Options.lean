/-
  TagExpander.CommandLine.Options — command lines read into options.

      --name value    --name=value    -n value    -nvalue    -n=value    -vn value

  Words are read from left to right.  The value of a parameter is looked at when the
  next word that makes sense is reached; a word that makes no sense is refused before
  that.  Behind `--` every word is a file.
-/

import TagExpander.CommandLine.Usage
import TagExpander.Settings.Load

namespace TagExpander.CommandLine

/-! ## §1. Options -/

/-- What a command line asks for. -/
structure Options where
  /-- The file to expand. -/
  file : Path
  /-- The settings file. -/
  config : Option Path
  /-- What takes precedence over the settings file. -/
  overrides : Settings.Overrides
  /-- A file with metadata. -/
  metaFile : Option Path
  /-- Further metadata, in order. -/
  entries : List (String × Json.Value)
  /-- The file to write, instead of the standard output. -/
  output : Option Path
  /-- Are the metadata printed afterwards? -/
  printMetadata : Bool
  /-- Is a log asked for?  It is no part of the result. -/
  verbose : Bool
deriving Inhabited

/-- What ends the reading of a command line early. -/
inductive Stop where
  /-- It asks for help. -/
  | help (topic : Topic)
  /-- It asks for the version. -/
  | version
  /-- It says nothing. -/
  | noCommand
  /-- It is not understood. -/
  | fault (cause : UsageFault)
deriving DecidableEq, Inhabited

/-! ## §2. Values -/

/-- Reads decimal digits, behind those that spell `n`. -/
def readSizeFrom (n : Nat) : List Char → Except String Nat
  | [] => .ok n
  | c :: cs =>
    match Text.digit? 10 c with
    | none => .error "invalid digit found in string"
    | some d =>
      let n := n * 10 + d
      if Word.fitsUnsigned 64 n then readSizeFrom n cs
      else .error "number too large to fit in target type"

/-- Reads a natural number of 64 bits; a plus sign may stand in front. -/
def readSize : List Char → Except String Nat
  | [] => .error "cannot parse integer from empty string"
  | ['+'] => .error "invalid digit found in string"
  | '+' :: cs => readSizeFrom 0 cs
  | cs => readSizeFrom 0 cs

/-- Reads a metadata entry `KEY=VALUE`: the value is JSON, or else a text. -/
def readEntry (s : String) : Except String (String × Json.Value) :=
  let key := s.toList.takeWhile (· != '=')
  match s.toList.dropWhile (· != '=') with
  | [] => .error ("expected KEY=VALUE, got \x60" ++ s ++ "\x60")
  | _ :: raw =>
    if key.isEmpty then .error "metadata key cannot be empty"
    else
      let text := String.ofList raw
      .ok (String.ofList key, (Json.Value.parse? text).getD (.string text))

/-- Gives a parameter a value that is not refused. -/
def Options.set (o : Options) (param : Param) (value : String) : Except UsageFault Options :=
  let path (update : Path → Options) : Except UsageFault Options :=
    if value.isEmpty then .error (.noValue param) else .ok (update (.ofString value))
  match param with
  | .file => path fun p => { o with file := p }
  | .config => path fun p => { o with config := some p }
  | .sourceDir => path fun p => { o with overrides := { o.overrides with sourceDir := some p } }
  | .metaFile => path fun p => { o with metaFile := some p }
  | .output => path fun p => { o with output := some p }
  | .maxDepth =>
    match readSize value.toList with
    | .ok n => .ok { o with overrides := { o.overrides with maxDepth := some n } }
    | .error reason => .error (.invalid param value reason)
  | .entry =>
    match readEntry value with
    | .ok entry => .ok { o with entries := o.entries ++ [entry] }
    | .error reason => .error (.invalid param value reason)
  | .printMetadata => .ok { o with printMetadata := true }
  | .verbose => .ok { o with verbose := true }
  | .help | .version => .ok o

/-! ## §3. Words -/

/-- A command line that is being read. -/
structure Draft where
  /-- The options so far. -/
  options : Options
  /-- The parameters that were given. -/
  given : List Param
  /-- A parameter that was named, and its value, which may still be to come. -/
  pending : Option (Param × Option String)
  /-- Was a file named? -/
  hasFile : Bool
  /-- Is every further word a file? -/
  onlyFiles : Bool
deriving Inhabited

namespace Draft

/-- A command line of which nothing is read. -/
def start : Draft :=
  ⟨⟨⟨[]⟩, none, ⟨none, none⟩, none, [], none, false, false⟩, [], none, false, false⟩

/-- Gives a parameter its value; only metadata entries may be given repeatedly. -/
def give (d : Draft) (param : Param) (value : String) : Except Stop Draft :=
  if d.given.contains param && param != .entry then .error (.fault (.repeated param))
  else
    match d.options.set param value with
    | .ok options => .ok { d with options, given := param :: d.given }
    | .error cause => .error (.fault cause)

/-- Gives the pending parameter its value. -/
def settle (d : Draft) : Except Stop Draft :=
  match d.pending with
  | none => .ok d
  | some (param, none) => .error (.fault (.noValue param))
  | some (param, some value) => { d with pending := none }.give param value

/-- Names a parameter, with its value where that is attached to it. -/
def name (d : Draft) (param : Param) (value : Option String) : Except Stop Draft :=
  match param.valueName?, value with
  | none, some value => .error (.fault (.unwantedValue param value))
  | none, none => do
    let d ← d.settle
    if param == .help then .error (.help .expand) else d.give param ""
  | some _, some value => do (← d.settle).give param value
  | some _, none => do
    let d ← d.settle
    .ok { d with pending := some (param, none) }

/-- A word that is a file; there is only one. -/
def takeFile (d : Draft) (word : String) : Except Stop Draft :=
  if d.hasFile then .error (.fault (.unexpected word))
  else do
    let d ← d.settle
    .ok { d with pending := some (.file, some word), hasFile := true }

/-- The name and the value of a long option. -/
def splitLong (cs : List Char) : String × Option String :=
  (String.ofList (cs.takeWhile (· != '=')),
    match cs.dropWhile (· != '=') with
    | [] => none
    | _ :: value => some (String.ofList value))

/-- A long option, without its dashes. -/
def long (d : Draft) (cs : List Char) : Except Stop Draft :=
  let (name, value) := splitLong cs
  match Param.ofLong? Param.ofExpand name with
  | some param => d.name param value
  | none => .error (.fault (.unexpected ("--" ++ name)))

/-- The value behind a short option. -/
def attached : List Char → Option String
  | [] => none
  | '=' :: cs => some (String.ofList cs)
  | cs => some (String.ofList cs)

/-- Short options behind one dash; the value of one of them ends the word. -/
def cluster : List Char → Draft → Except Stop Draft
  | [], d => .ok d
  | c :: cs, d =>
    match Param.ofShort? Param.ofExpand c with
    | none => .error (.fault (.unexpected (String.ofList ['-', c])))
    | some param =>
      if param.valueName?.isSome then d.name param (attached cs)
      else do cluster cs (← d.name param none)

/-- Reads a word. -/
def word (d : Draft) (w : String) : Except Stop Draft :=
  if d.onlyFiles then d.takeFile w
  else
    match w.toList with
    | ['-', '-'] => .ok { d with onlyFiles := true }
    | '-' :: '-' :: cs => d.long cs
    | '-' :: c :: cs => cluster (c :: cs) d
    | _ =>
      match d.pending with
      | some (param, none) => .ok { d with pending := some (param, some w) }
      | _ => d.takeFile w

/-- Reads all words. -/
def readWords (d : Draft) (words : List String) : Except Stop Draft :=
  words.foldlM word d

/-- The options of a command line that is read.  A metadata file may also be named by
    the environment; the file to expand must be given. -/
def finish (d : Draft) (metaFile : Option String) : Except Stop Options := do
  let d ← d.settle
  let d ←
    match metaFile with
    | some value => if d.given.contains .metaFile then .ok d else d.give .metaFile value
    | none => .ok d
  if d.given.contains .file then .ok d.options else .error (.fault .noFile)

end Draft

/-! ## §4. Command lines -/

/-- The command that expands a file. -/
def expandCommand : String := "expand"

/-- The command that shows help. -/
def helpCommand : String := "help"

/-- What help is about, by the name of a command. -/
def topicOf? (command : String) : Option Topic :=
  if command == expandCommand then some .expand
  else if command == helpCommand then some .help
  else none

/-- The help that is asked for by the words behind the command; commands have no
    commands of their own. -/
def readHelp : List String → Stop
  | [] => .help .program
  | w :: ws =>
    match topicOf? w, ws with
    | none, _ => .fault (.unknownCommand w)
    | some topic, [] => .help topic
    | some _, w :: _ => .fault (.unknownCommand w)

/-- A general option. -/
def general (param : Option Param) (word : String) : Stop :=
  match param with
  | some .help => .help .program
  | some .version => .version
  | _ => .fault (.unexpected word)

/-- What a first word that is no command means. -/
def readFirst (w : String) (ws : List String) : Stop :=
  match w.toList with
  | ['-', '-'] =>
    match ws with
    | [] => .noCommand
    | w :: _ =>
      if w == expandCommand || w == helpCommand then .fault (.unexpected w)
      else .fault (.unknownCommand w)
  | '-' :: '-' :: cs =>
    let (name, value) := Draft.splitLong cs
    match Param.ofLong? Param.general name, value with
    | some param, some value => .fault (.unwantedValue param value)
    | param, _ => general param ("--" ++ name)
  | '-' :: c :: _ => general (Param.ofShort? Param.general c) (String.ofList ['-', c])
  | _ => .fault (.unknownCommand w)

/-- Reads a command line; `metaFile` is what the environment says. -/
def Options.read (metaFile : Option String) : List String → Except Stop Options
  | [] => .error .noCommand
  | w :: ws =>
    if w == expandCommand then Draft.start.readWords ws >>= (·.finish metaFile)
    else .error (if w == helpCommand then readHelp ws else readFirst w ws)

end TagExpander.CommandLine
