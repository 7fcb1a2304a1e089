/-
  TagExpander.Handler.Basic — what handlers are given and what they give back.

  A handler is a state machine: each tag of its name is one step, which sees the
  arguments and the content of the tag, the document, and the place of the tag.
-/

import TagExpander.Argument.Binding
import TagExpander.Document
import TagExpander.Handler.Script

namespace TagExpander

/-! ## §1. Output -/

/-- What a handler puts in the place of a tag. -/
inductive Output where
  /-- Nothing. -/
  | none
  /-- Documents whose tags are to be expanded. -/
  | documents (docs : List Document)
  /-- Documents whose text is taken as it is. -/
  | raw (docs : List Document)
deriving Inhabited

namespace Output

/-- A text to be expanded. -/
def ofContent (text : String) : Output :=
  .documents [.ofContent text]

/-- A text to be taken as it is. -/
def ofRaw (text : String) : Output :=
  .raw [.ofContent text]

/-- Is the output taken as it is? -/
def isRaw : Output → Bool
  | .raw _ => true
  | _ => false

/-- The documents put out. -/
def docs : Output → List Document
  | .none => []
  | .documents docs => docs
  | .raw docs => docs

end Output

/-- Why a handler fails. -/
inductive HandlerFault where
  /-- The arguments were not understood. -/
  | argument (message : String)
  /-- Anything else; the causes behind it follow, the nearest first. -/
  | fault (message : String) (causes : List String)
deriving DecidableEq, Inhabited

/-- The wording of a handler fault. -/
def HandlerFault.message : HandlerFault → String
  | .argument message => message
  | .fault message _ => message

/-- A binding fault is a fault of the arguments. -/
def HandlerFault.ofBinding (f : BindingFault) : HandlerFault :=
  .argument f.message

/-! ## §2. Handlers -/

/-- The surroundings of one tag. -/
structure Context where
  /-- The path of the document, if it is known. -/
  sourcePath : Option Path
  /-- The directory that relative paths start from. -/
  baseDir : Path
  /-- Line of the tag in the text that is being expanded. -/
  line : Nat
  /-- Number of handler outputs around the tag; 0 in the document itself. -/
  depth : Nat
deriving DecidableEq, Inhabited

/-- One tag as its handler sees it. -/
structure Invocation where
  /-- The arguments of the tag. -/
  arguments : Arguments
  /-- The text between its markers. -/
  content : String
  /-- The text of the whole document, with the metadata as they stand now. -/
  document : Document
  /-- The place of the tag. -/
  context : Context
deriving Inhabited

/-- A handler with states of type `σ`. -/
structure Handler (σ : Type) where
  /-- The state of a new instance. -/
  initial : σ
  /-- Handles one tag; gives the next state and the output. -/
  execute : σ → Invocation → Script (σ × Except HandlerFault Output)

/-- A handler whose answers do not depend on its state. -/
def Handler.stateless {σ : Type} [Inhabited σ]
    (answer : Invocation → Script (Except HandlerFault Output)) : Handler σ where
  initial := default
  execute state call := (answer call).bind fun result => .done (state, result)

/-! ## §3. Paths of a context -/

namespace Context

/-- A path as seen from the base directory. -/
def resolve (c : Context) (path : String) : Path :=
  c.baseDir.join (.ofString path)

/-- Appends components to a path one by one, `depth` of them so far.  A `..` takes
    back one that was appended; with none left, and for an absolute path, there is no
    result. -/
def descend (resolved : Path) (depth : Nat) : List Path.Component → Option Path
  | [] => some resolved
  | .normal name :: cs => descend (resolved.join ⟨name⟩) (depth + 1) cs
  | .current :: cs => descend resolved depth cs
  | .parent :: cs =>
    match depth with
    | 0 => none
    | depth + 1 => descend resolved.pop depth cs
  | .root :: _ => none

/-- A path below the base directory; none if the path leaves it, in writing or by a
    link. -/
def resolveSafe (c : Context) (path : String) : Script (Option Path) :=
  match descend c.baseDir 0 (Path.ofString path).components with
  | none => .done none
  | some resolved =>
    .canonical resolved fun target =>
      .canonical c.baseDir fun base =>
        match target, base with
        | some target, some base =>
          if target.startsWith base then .done (some resolved) else .done none
        | _, _ => .done (some resolved)

end Context

end TagExpander
