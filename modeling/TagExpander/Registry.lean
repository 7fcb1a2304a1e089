/-
  TagExpander.Registry — handlers by name.

  Names are looked up in their folded spelling.  Registering a name again, in any
  spelling, replaces the earlier entry.

  Main results:
    * `resolve?_register` — looking up after a registration.
    * `isRaw_eq` — a name is raw exactly if the entry it resolves to is.
-/

import TagExpander.Handler.Basic
import TagExpander.Text.Escaped

namespace TagExpander

/-- How the tags of a handler are treated. -/
inductive Kind where
  /-- The content is scanned for nested tags, the output is expanded. -/
  | standard
  /-- The content is opaque, the output is taken as it is. -/
  | raw
deriving DecidableEq, Inhabited

/-- The name of a kind. -/
def Kind.name : Kind → String
  | .standard => "Standard"
  | .raw => "Raw"

/-- A registered handler. -/
structure Entry (σ : Type) where
  /-- The name, as it was registered. -/
  name : String
  /-- How its tags are treated. -/
  kind : Kind
  /-- The handler. -/
  handler : Handler σ

/-- The text that describes an entry. -/
def Entry.describe {σ : Type} (e : Entry σ) : String :=
  "ShortcodeEntry \x7b name: " ++ Text.escaped e.name ++ ", kind: " ++ e.kind.name ++ ", .. \x7d"

/-- Handlers by name. -/
structure Registry (σ : Type) where
  /-- The entries, the latest first; no two names are the same up to case. -/
  entries : List (Entry σ)
  /-- No name occurs twice. -/
  distinct : (entries.map fun e => Text.fold e.name).Nodup

namespace Registry

variable {σ : Type}

/-- The registry without entries. -/
def empty : Registry σ :=
  ⟨[], List.nodup_nil⟩

instance : Inhabited (Registry σ) :=
  ⟨empty⟩

/-- Adds an entry in the place of any other of its name. -/
def register (r : Registry σ) (e : Entry σ) : Registry σ where
  entries := e :: r.entries.filter fun e' => !Text.same e'.name e.name
  distinct := by
    rw [List.map_cons, List.nodup_cons]
    constructor
    · rw [List.mem_map]
      rintro ⟨e', he', hsame⟩
      simp [Text.same_iff.2 hsame] at he'
    · exact r.distinct.sublist (List.filter_sublist.map _)

/-- The entry of a name. -/
def resolve? (r : Registry σ) (name : String) : Option (Entry σ) :=
  r.entries.find? fun e => Text.same e.name name

/-- Is the name registered? -/
def contains (r : Registry σ) (name : String) : Bool :=
  (r.resolve? name).isSome

/-- Is the name registered as raw?  Unknown names are not raw. -/
def isRaw (r : Registry σ) (name : String) : Bool :=
  (r.resolve? name).any fun e => e.kind == .raw

/-- Number of entries. -/
def size (r : Registry σ) : Nat :=
  r.entries.length

/-- The registered names, in the order of their folded spellings. -/
def names (r : Registry σ) : List String :=
  (r.entries.map Entry.name).mergeSort fun a b => decide (Text.fold a ≤ Text.fold b)

/-- The text that describes a registry. -/
def describe (r : Registry σ) : String :=
  "ShortcodeRegistry \x7b names: [" ++ ", ".intercalate (r.names.map Text.escaped) ++ "] \x7d"

/-- Looking up after a registration. -/
theorem resolve?_register (r : Registry σ) (e : Entry σ) (name : String) :
    (r.register e).resolve? name =
      if Text.fold e.name = Text.fold name then some e else r.resolve? name := by
  unfold resolve? register
  simp only [List.find?_cons]
  by_cases h : Text.fold e.name = Text.fold name
  · simp [Text.same_iff.2 h, h]
  · have hne : Text.same e.name name = false := by
      rw [Bool.eq_false_iff]
      exact fun hs => h (Text.same_iff.1 hs)
    simp only [hne, h, if_false, List.find?_filter]
    congr 1
    funext e'
    by_cases h' : Text.same e'.name name = true
    · have hn : Text.same e'.name e.name = false := by
        rw [Bool.eq_false_iff]
        intro hs
        exact h ((Text.same_iff.1 hs).symm.trans (Text.same_iff.1 h'))
      simp [h', hn]
    · simp [h']

/-- What a name resolves to has that name, up to case. -/
theorem fold_name_of_resolve? {r : Registry σ} {name : String} {e : Entry σ}
    (h : r.resolve? name = some e) : Text.fold e.name = Text.fold name := by
  have hsame := List.find?_some h
  exact Text.same_iff.1 hsame

/-- A name is raw exactly if the entry it resolves to is. -/
theorem isRaw_eq {r : Registry σ} {name : String} {e : Entry σ} (h : r.resolve? name = some e) :
    r.isRaw name = (e.kind == .raw) := by
  simp [isRaw, h]

end Registry

end TagExpander
