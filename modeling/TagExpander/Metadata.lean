/-
  TagExpander.Metadata — the metadata of a document.

  Metadata is an ordered list of named values with distinct names.  Merging sets the
  fields of one metadata in another, one after the other: names that are present
  keep their place and take the new value, new names follow in their own order.

  Main results:
    * `get?_insert` — looking up after setting a field.
    * `get?_merge` — looking up in merged metadata: the later one wins.
-/

import TagExpander.Json.Printer
import TagExpander.Json.Reader
import TagExpander.Text.Basic

namespace TagExpander

open Json (Value)

/-- Named values with distinct names, in order. -/
structure Metadata where
  /-- The fields, in the order of their first insertion. -/
  fields : Fields Value
  /-- No name occurs twice. -/
  distinct : fields.keys.Nodup

namespace Metadata

/-! ## §1. Building -/

/-- Metadata without fields. -/
def empty : Metadata :=
  ⟨[], List.nodup_nil⟩

instance : Inhabited Metadata :=
  ⟨empty⟩

/-- Sets the value under a name. -/
def insert (m : Metadata) (key : String) (value : Value) : Metadata :=
  ⟨m.fields.put key value, Fields.nodup_keys_put m.distinct key value⟩

/-- Sets fields one after the other. -/
def insertAll (m : Metadata) (fields : Fields Value) : Metadata :=
  fields.foldl (fun m f => m.insert f.1 f.2) m

/-- Metadata from fields; of two fields of one name, the place is that of the first
    and the value that of the last. -/
def ofFields (fields : Fields Value) : Metadata :=
  empty.insertAll fields

/-- Metadata overwritten field by field. -/
def merge (m delta : Metadata) : Metadata :=
  m.insertAll delta.fields

/-! ## §2. Looking up -/

/-- The value under a name. -/
def get? (m : Metadata) (key : String) : Option Value :=
  m.fields.get? key

/-- Is there a value under the name? -/
def contains (m : Metadata) (key : String) : Bool :=
  (m.get? key).isSome

/-- The names, in order. -/
def keys (m : Metadata) : List String :=
  m.fields.keys

/-- Number of fields. -/
def size (m : Metadata) : Nat :=
  m.fields.length

/-- The value under a name, if it is a string. -/
def getString? (m : Metadata) (key : String) : Option String :=
  match m.get? key with
  | some (.string s) => some s
  | _ => none

/-- The value under a name, if it is a list. -/
def getList? (m : Metadata) (key : String) : Option (List Value) :=
  match m.get? key with
  | some (.array items) => some items
  | _ => none

/-- The whole number that a text spells: an optional sign and decimal digits. -/
def readInt? (cs : List Char) : Option Int :=
  let natural (cs : List Char) : Option Int :=
    if !cs.isEmpty && cs.all Char.isDigit then
      some (Text.number 10 cs)
    else none
  match cs with
  | '-' :: cs => (natural cs).map (- ·)
  | '+' :: cs => natural cs
  | cs => natural cs

/-- The signed 64-bit number that a text spells. -/
def readInt64? (text : String) : Option Int :=
  (readInt? text.toList).filter (Word.fitsSigned 64)

/-- The value under a name as a signed 64-bit number; a string may spell it, between
    blanks. -/
def getInt? (m : Metadata) (key : String) : Option Int :=
  match m.get? key with
  | some (.number n) => n.int64?
  | some (.string s) => readInt64? (String.ofList (Text.trim s.toList))
  | _ => none

/-- The text that the value under a name shows. -/
def getDisplay? (m : Metadata) (key : String) : Option String :=
  (m.get? key).map Value.display

/-! ## §3. JSON text -/

/-- The value of the metadata as a whole. -/
def toValue (m : Metadata) : Value :=
  .object m.fields

/-- The compact JSON text. -/
def render (m : Metadata) : String :=
  m.toValue.render

/-- The indented JSON text. -/
def renderIndented (m : Metadata) : String :=
  m.toValue.renderIndented 0

/-- The metadata of a value, which must be an object. -/
def ofValue? : Value → Option Metadata
  | .object fields => some (ofFields fields)
  | _ => none

/-- The metadata of the JSON text of an object. -/
def parse? (text : String) : Option Metadata :=
  (Value.parse? text).bind ofValue?

/-- Do two metadata have the same fields? -/
def same (m n : Metadata) : Bool :=
  m.toValue.same n.toValue

/-! ## §4. Laws -/

/-- Metadata are equal if their fields are. -/
theorem ext_fields {m n : Metadata} (h : m.fields = n.fields) : m = n := by
  cases m; cases n; cases h; rfl

/-- Looking up after setting a field. -/
theorem get?_insert (m : Metadata) (key : String) (value : Value) (k : String) :
    (m.insert key value).get? k = if key = k then some value else m.get? k :=
  Fields.get?_put m.fields key value k

/-- Looking up after setting several fields of distinct names. -/
theorem get?_insertAll (m : Metadata) {fields : Fields Value} (h : fields.keys.Nodup)
    (k : String) : (m.insertAll fields).get? k = (fields.get? k).or (m.get? k) := by
  induction fields generalizing m with
  | nil => simp [insertAll, Fields.get?]
  | cons f fs ih =>
    obtain ⟨key, value⟩ := f
    simp only [Fields.keys, List.map_cons, List.nodup_cons] at h
    rw [insertAll, List.foldl_cons, ← insertAll, ih (m.insert key value) h.2, get?_insert]
    by_cases hk : key = k
    · subst hk
      have hnone : Fields.get? fs key = none := Fields.get?_eq_none_iff.2 h.1
      simp [Fields.get?, hnone]
    · simp [Fields.get?, hk]

/-- In merged metadata the later value wins. -/
theorem get?_merge (m delta : Metadata) (k : String) :
    (m.merge delta).get? k = (delta.get? k).or (m.get? k) :=
  get?_insertAll m delta.distinct k

end Metadata

end TagExpander
