/-
  TagExpander.Settings.Stored — the settings that a file holds.

      [docs]
      source_dir = "docs"

      [shortcodes]
      max_depth = 10

  Both tables and both fields may be left out; fields of other names do not matter.  A
  list in the place of a table gives the fields by their position, and a date in the
  place of a table counts as an empty one.
-/

import TagExpander.Toml.Reader

namespace TagExpander.Settings

/-- The settings of a file. -/
structure Stored where
  /-- The source directory, as written. -/
  sourceDir : Option String
  /-- The limit of nesting. -/
  maxDepth : Option Nat
deriving DecidableEq, Inhabited

namespace Stored

open Toml (Value)

/-- The value of a setting: under its name in a table, or at the front of a list. -/
def field? (name : String) : Value → Option (Option Value)
  | .table fields => some (Fields.get? fields name)
  | .array items => some items.head?
  | .datetime => some none
  | _ => none

/-- A text, if there is a value. -/
def text? : Option Value → Option (Option String)
  | none => some none
  | some (.string s) => some (some s)
  | some _ => none

/-- A whole number of the unsigned 64-bit range, if there is a value. -/
def natural? : Option Value → Option (Option Nat)
  | none => some none
  | some (.integer n) => if Word.fitsUnsigned 64 n then some (some n.toNat) else none
  | some _ => none

/-- The settings of a document; `none` if a value is of the wrong kind. -/
def ofFields? (fields : List (String × Value)) : Option Stored := do
  let docs := (Fields.get? fields "docs").getD (.table [])
  let shortcodes := (Fields.get? fields "shortcodes").getD (.table [])
  let sourceDir ← text? (← field? "source_dir" docs)
  let maxDepth ← natural? (← field? "max_depth" shortcodes)
  some ⟨sourceDir, maxDepth⟩

/-- Reads the settings of a file; `none` if its text is not of this form. -/
def parse? (text : String) : Option Stored :=
  (Toml.parse? text).bind ofFields?

end Stored

end TagExpander.Settings
