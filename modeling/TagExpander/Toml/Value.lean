/-
  TagExpander.Toml.Value — the values of a TOML document.
-/

import TagExpander.Fields

namespace TagExpander.Toml

/-- A value. -/
inductive Value where
  | string (s : String)
  | integer (n : Int)
  | float
  | boolean (b : Bool)
  | datetime
  | array (items : List Value)
  | table (fields : List (String × Value))
deriving Inhabited

/-! ## Tables under construction -/

/-- How a table came to be. -/
inductive Origin where
  /-- On the way to the table of a header. -/
  | implied
  /-- On the way to the value of a dotted key. -/
  | dotted
  /-- By a header of its own. -/
  | header
deriving DecidableEq, Inhabited

/-- A part of a document that is being read. -/
inductive Node where
  /-- A complete value; nothing can be added to it. -/
  | value (v : Value)
  /-- A table. -/
  | table (origin : Origin) (fields : List (String × Node))
  /-- A list of tables, the latest first. -/
  | tables (latest : List (String × Node)) (earlier : List Value)
deriving Inhabited

mutual

/-- The complete value of a node. -/
def Node.toValue : Node → Value
  | .value v => v
  | .table _ fields => .table (Node.toFields fields)
  | .tables latest earlier => .array (earlier.reverse ++ [.table (Node.toFields latest)])

/-- The complete values of fields. -/
def Node.toFields : List (String × Node) → List (String × Value)
  | [] => []
  | (k, n) :: rest => (k, n.toValue) :: Node.toFields rest

end

/-- The nodes of a table. -/
abbrev Nodes := List (String × Node)

namespace Nodes

/-- Changes the table at the end of a path.  Tables on the way are made if need be.
    The path of a dotted key leads through no table that a header named, and through
    no list of tables; no path leads through a complete value. -/
def modify (dotted : Bool) (change : Origin → Nodes → Option Nodes) (origin : Origin) :
    List String → Nodes → Option Nodes
  | [], nodes => change origin nodes
  | key :: path, nodes => do
    match Fields.get? nodes key with
    | none =>
      let made := if dotted then Origin.dotted else .implied
      let inner ← modify dotted change made path []
      some (Fields.put nodes key (.table made inner))
    | some (.table origin fields) =>
      if dotted && origin == .header then none
      else
        let inner ← modify dotted change origin path fields
        some (Fields.put nodes key (.table origin inner))
    | some (.tables latest earlier) =>
      if dotted then none
      else
        let inner ← modify dotted change .header path latest
        some (Fields.put nodes key (.tables inner earlier))
    | some (.value _) => none

/-- Adds a value under a key, dotted if there is a path in front of it. -/
def addValue (nodes : Nodes) (path : List String) (key : String) (v : Value) : Option Nodes :=
  modify true
    (fun origin nodes =>
      if (origin == .dotted) == path.isEmpty then none
      else
        match Fields.get? nodes key with
        | some _ => none
        | none => some (Fields.put nodes key (.value v)))
    .header path nodes

/-- Opens the table of a header. -/
def openTable (nodes : Nodes) (path : List String) (key : String) : Option Nodes :=
  modify false
    (fun _ nodes =>
      match Fields.get? nodes key with
      | none => some (Fields.put nodes key (.table .header []))
      | some (.table .implied fields) => some (Fields.put nodes key (.table .header fields))
      | some _ => none)
    .header path nodes

/-- Opens a new table in the list of a double header. -/
def openTables (nodes : Nodes) (path : List String) (key : String) : Option Nodes :=
  modify false
    (fun _ nodes =>
      match Fields.get? nodes key with
      | none => some (Fields.put nodes key (.tables [] []))
      | some (.tables latest earlier) =>
        some (Fields.put nodes key (.tables [] (.table (Node.toFields latest) :: earlier)))
      | some _ => none)
    .header path nodes

/-- Adds a value to the table at the end of a path, the last of a list of tables. -/
def addUnder (nodes : Nodes) (table path : List String) (key : String) (v : Value) :
    Option Nodes :=
  modify false (fun _ nodes => addValue nodes path key v) .header table nodes

end Nodes

end TagExpander.Toml
