/-
  TagExpander.Yaml.Value — YAML documents as metadata values.

  Keys are texts, in any style.  The values of plain scalars are numbers, truth values,
  null or texts, those of other scalars texts, unless a tag says more.  A local tag is
  refused.
-/

import TagExpander.Yaml.Node
import TagExpander.Yaml.Plain

namespace TagExpander.Yaml

open Json (Value)

/-! ## §1. Scalars -/

/-- The value of a scalar without a tag. -/
def untaggedValue? (text : String) (isPlain : Bool) : Option Value :=
  if isPlain then Plain.value? text else some (.string text)

/-- The value of a scalar with a tag that is not local. -/
def standardValue? (tag : Tag) (text : String) : Option Value :=
  if tag == .standard "bool" then (Plain.bool? text).map .bool
  else if tag == .standard "int" then (Plain.wideInt? text.toList).bind Plain.intValue?
  else if tag == .standard "float" then Plain.float? text.toList
  else if tag == .standard "null" then if Plain.isNull text then some .null else none
  else some (.string text)

/-- Is a node with this tag refused?  A local tag asks for a kind of value that is not
    known; one that cannot be read asks for nothing. -/
def isRefused (tag : Option Tag) : Bool :=
  tag.any fun t => t.isLocal && t.isReadable

/-- The value of a scalar. -/
def scalarValue? (text : String) (isPlain : Bool) (tag : Option Tag) : Option Value :=
  if isRefused tag then none
  else
    match tag.filter (!·.isLocal) with
    | some tag => standardValue? tag text
    | none => untaggedValue? text isPlain

/-! ## §2. Documents -/

/-- What conversion carries along: how often an alias may still be followed. -/
abbrev Conversion (α : Type) := StateT Nat Option α

/-- How often aliases may be followed, for every token that would spell the document. -/
def aliasesPerToken : Nat := 100

namespace Document

open Text (orFail)

/-- The node itself, or that which an alias stands for. -/
def follow (d : Document) : Node → Conversion Node
  | .alias number => do
    match ← get with
    | 0 => failure
    | left + 1 => do
      set left
      orFail (d.anchored.lookup number)
  | n => pure n

/-- The text of a key. -/
def keyText (d : Document) (key : Node) : Conversion String := do
  match ← d.follow key with
  | .scalar text _ _ => pure text
  | _ => failure

/-- The fields of keys with values; of two fields of one key, the place is that of the
    first and the value that of the last. -/
def fieldValues (d : Document) (value : Node → Conversion Value) (fields : List (Node × Node)) :
    Conversion (Fields Value) :=
  fields.foldlM (fun done (k, v) => do
    let key ← d.keyText k
    return Fields.put done key (← value v)) []

/-- The value of a node of at most `levels` levels. -/
def value (d : Document) : (levels : Nat) → Node → Conversion Value
  | levels, n => do
    match ← d.follow n, levels with
    | .scalar text isPlain tag, _ => orFail (scalarValue? text isPlain tag)
    | .sequence items tag, levels + 1 =>
      if isRefused tag then failure
      else return .array (← items.mapM (value d levels))
    | .mapping fields tag, levels + 1 =>
      if isRefused tag then failure
      else return .object (← d.fieldValues (value d levels) fields)
    | _, _ => failure

/-- The fields of the mapping that a document is; without a root, or with one that is
    left out, there are none. -/
def fields (d : Document) : Conversion (Fields Value) := do
  match d.root with
  | none => pure []
  | some (.scalar "" true _) => pure []
  | some (.mapping fields _) => d.fieldValues (d.value (maxLevels - 1)) fields
  | some _ => failure

end Document

/-- The fields of a YAML text; `none` if it is not a mapping, or is malformed. -/
def parse? (text : String) : Option (Fields Value) := do
  let d ← Document.parse? text
  let aliases := aliasesPerToken * (d.root.map Node.size).getD 1
  let (fields, _) ← d.fields.run aliases
  some fields

end TagExpander.Yaml
