/-
  TagExpander.Handler.Builtin — the handlers that every registry can start with.

      <?# Raw ?>text<?#/ Raw ?>                               its content, untouched
      <?# Meta Key [Default] /?>                              a metadata value
      <?# ForEach Key ValueKey [IndexKey] ?>..<?#/ ForEach ?>  its content, per list item
      <?# If Key [Value] ?>..<?#/ If ?>                       its content, on a condition
      <?# Include Path /?>                                    a file below the base directory

  None of them keeps a state, and none of them puts metadata values into text that
  is expanded.
-/

import TagExpander.Registry

namespace TagExpander.Builtin

/-! ## §1. Answers that need no file -/

/-- Binds the arguments of a tag, or fails with the reason. -/
def bound (call : Invocation) (parameters : List String) : Except HandlerFault Binding :=
  (call.arguments.bind parameters).mapError .ofBinding

/-- The value of a parameter that must be given and not be empty. -/
def textOf (b : Binding) (parameter : String) : Except HandlerFault String :=
  (b.requireText parameter).mapError .ofBinding

/-- `Raw`: the content of the tag as it is. -/
def raw (call : Invocation) : Except HandlerFault Output :=
  .ok (.ofRaw call.content)

/-- `Meta`: the text that a metadata value shows, or else the default, as it is. -/
def metadataValue (call : Invocation) : Except HandlerFault Output := do
  let args ← bound call ["Key", "Default"]
  let key ← textOf args "Key"
  match (call.document.metadata.getDisplay? key).or (args.get? "Default") with
  | some text => .ok (.ofRaw text)
  | none => .ok .none

/-- The document of one item of a list: the content of the tag, with the item and its
    index in the metadata. -/
def itemDocument (call : Invocation) (valueKey : String) (indexKey : Option String)
    (item : Json.Value) (index : Nat) : Document :=
  let delta := Metadata.empty.insert valueKey item
  let delta :=
    match indexKey with
    | some key => delta.insert key (.number (.int index))
    | none => delta
  call.document.copy (some delta) (some call.content)

/-- `ForEach`: the content of the tag once for every item of a list.  Without a list
    there is no output. -/
def forEach (call : Invocation) : Except HandlerFault Output := do
  let args ← bound call ["Key", "ValueKey", "IndexKey"]
  (args.require ["Key", "ValueKey"]).mapError .ofBinding
  let valueKey ← textOf args "ValueKey"
  let indexKey := (args.get? "IndexKey").filter fun key => !key.isEmpty
  match (args.get? "Key").bind call.document.metadata.getList? with
  | none => .ok .none
  | some items =>
    .ok (.documents (items.zipIdx.map fun (item, i) => itemDocument call valueKey indexKey item i))

/-- `If`: the content of the tag, if the metadata value shows the given text, or if
    none is given and the value counts as true. -/
def condition (call : Invocation) : Except HandlerFault Output := do
  let args ← bound call ["Key", "Value"]
  let key ← textOf args "Key"
  let holds :=
    match call.document.metadata.get? key, args.get? "Value" with
    | none, _ => false
    | some value, some text => value.display == text
    | some value, none => value.isTruthy
  .ok (if holds then .ofContent call.content else .none)

/-! ## §2. Inclusion -/

/-- The fault of a path that leaves the base directory. -/
def outsideFault (path : String) : HandlerFault :=
  .argument ("Path `" ++ path ++ "` is outside the base directory")

/-- The fault of a file that cannot be read. -/
def includeFault (path : Path) (cause : FileFault) : HandlerFault :=
  .fault ("failed to include " ++ path.toString) [cause.message]

/-- Reads a file and puts out its text to be expanded. -/
def includeFile (path : Path) : Script (Except HandlerFault Output) :=
  .read path fun
    | .ok text => .done (.ok (.ofContent text))
    | .error cause => .done (.error (includeFault path cause))

/-- `Include`: the text of a file below the base directory. -/
def inclusion (call : Invocation) : Script (Except HandlerFault Output) :=
  match bound call ["Path"] >>= (textOf · "Path") with
  | .error fault => .done (.error fault)
  | .ok path =>
    (call.context.resolveSafe path).bind fun
      | none => .done (.error (outsideFault path))
      | some resolved => includeFile resolved

/-! ## §3. The registry of the builtin handlers -/

variable {σ : Type} [Inhabited σ]

/-- A handler that asks for nothing. -/
def pureHandler (answer : Invocation → Except HandlerFault Output) : Handler σ :=
  .stateless fun call => .done (answer call)

/-- The entries of the builtin handlers. -/
def entries : List (Entry σ) :=
  [⟨"Raw", .raw, pureHandler raw⟩,
   ⟨"Meta", .standard, pureHandler metadataValue⟩,
   ⟨"ForEach", .standard, pureHandler forEach⟩,
   ⟨"If", .standard, pureHandler condition⟩,
   ⟨"Include", .standard, .stateless inclusion⟩]

/-- The registry of the builtin handlers. -/
def registry : Registry σ :=
  entries.foldl Registry.register .empty

end TagExpander.Builtin
