/-
  TagExpander.Document — a text with metadata.
-/

import TagExpander.Metadata

namespace TagExpander

/-- A text with its metadata. -/
structure Document where
  /-- The text. -/
  content : String
  /-- The metadata. -/
  metadata : Metadata
deriving Inhabited

namespace Document

/-- A document without metadata. -/
def ofContent (content : String) : Document :=
  ⟨content, .empty⟩

/-- A document without text. -/
def ofMetadata (metadata : Metadata) : Document :=
  ⟨"", metadata⟩

/-- The document with one field of its metadata set. -/
def withItem (d : Document) (key : String) (value : Json.Value) : Document :=
  { d with metadata := d.metadata.insert key value }

/-- A copy, with metadata merged into its own and other text, where these are given. -/
def copy (d : Document) (delta : Option Metadata) (content : Option String) : Document :=
  ⟨content.getD d.content, match delta with
    | some delta => d.metadata.merge delta
    | none => d.metadata⟩

/-- Do two documents have the same text and the same metadata? -/
def same (d e : Document) : Bool :=
  d.content == e.content && d.metadata.same e.metadata

end Document

end TagExpander
