/-
  TagExpander.Yaml.Node — the tree of a YAML document.

  A text holds one document at most.  An alias stands for the node that was given the
  number of its name.
-/

import TagExpander.Yaml.Token

namespace TagExpander.Yaml

/-- A node of a document, with its tag, if it has one. -/
inductive Node where
  | scalar (text : String) (isPlain : Bool) (tag : Option Tag)
  | sequence (items : List Node) (tag : Option Tag)
  | mapping (fields : List (Node × Node)) (tag : Option Tag)
  | alias (number : Nat)
deriving Inhabited

/-- The node that stands where none is written. -/
def Node.empty : Node :=
  .scalar "" true none

mutual

/-- The number of tokens that would spell a node: one for a scalar or an alias, two
    and those of its parts for a sequence or a mapping. -/
def Node.size : Node → Nat
  | .scalar .. => 1
  | .alias _ => 1
  | .sequence items _ => sizeItems items + 2
  | .mapping fields _ => sizeFields fields + 2

/-- The size of several nodes. -/
def Node.sizeItems : List Node → Nat
  | [] => 0
  | n :: ns => n.size + sizeItems ns

/-- The size of several keys and values. -/
def Node.sizeFields : List (Node × Node) → Nat
  | [] => 0
  | (k, v) :: fs => k.size + v.size + sizeFields fs

end

/-- A document. -/
structure Document where
  /-- The root; a text of blanks and comments has none. -/
  root : Option Node
  /-- The nodes that aliases stand for, by their numbers. -/
  anchored : List (Nat × Node)
deriving Inhabited

/-! ## §1. Building from tokens -/

/-- What is known while nodes are built. -/
structure Draft where
  /-- The tokens ahead. -/
  tokens : List Token
  /-- What the handles of tags stand for. -/
  handles : List (String × Tag)
  /-- The numbers of the names of anchors. -/
  numbers : List (String × Nat)
  /-- For every number, which anchor, counted from 0, has it; latest first. -/
  holders : List (Nat × Nat)
  /-- Number of anchors so far. -/
  anchors : Nat
  /-- The nodes behind anchors. -/
  nodes : List (Nat × Node)
deriving Inhabited

/-- Builds something from the tokens ahead, or fails. -/
abbrev Builder (α : Type) := StateT Draft Option α

namespace Builder

open Text (orFail)

/-- The next token, which stays. -/
def peek? : Builder (Option Token) := return (← get).tokens.head?

/-- Passes over a token. -/
def drop : Builder Unit :=
  modify fun d => { d with tokens := d.tokens.tail }

/-- Takes a token, which must come next. -/
def expect (t : Token) : Builder Unit := do
  if (← peek?) == some t then drop else failure

/-- Is the next token one of these? -/
def isNext (ts : List Token) : Builder Bool := do
  return (← peek?).any ts.contains

/-- Goes round a loop until it ends with a result; every round but the last takes at
    least one token. -/
def loop {α β : Type} (step : β → Builder (β ⊕ α)) (b : β) : Builder α := do
  Text.loopOver step (← get).tokens b

/-- Builds a node, or takes the empty one in front of certain tokens. -/
def unlessNext (ts : List Token) (node : Builder Node) : Builder Node := do
  if ← isNext ts then pure .empty else node

/-- Builds the value behind `:`, if that comes next. -/
def valueOf (ends : List Token) (node : Builder Node) : Builder Node := do
  if ← isNext [.value] then
    drop
    unlessNext ends node
  else pure .empty

/-! ### Blocks -/

/-- The items of a block, from behind its start. -/
def blockItems (node : Builder Node) : Builder (List Node) :=
  loop (fun done => do
    if ← isNext [.dash] then
      drop
      return .inl ((← unlessNext [.dash, .blockEnd] node) :: done)
    else do
      expect .blockEnd
      pure (.inr done.reverse)) []

/-- The items behind a key that are not indented more than the key. -/
def flushItems (node : Builder Node) : Builder (List Node) :=
  loop (fun done => do
    if ← isNext [.dash] then
      drop
      return .inl ((← unlessNext [.dash, .key, .value, .blockEnd] node) :: done)
    else pure (.inr done.reverse)) []

/-- The keys and values of a block, from behind its start. -/
def blockFields (node : Builder Node) : Builder (List (Node × Node)) :=
  let ends : List Token := [.key, .value, .blockEnd]
  loop (fun done => do
    if ← isNext [.key] then
      drop
      let k ← unlessNext ends node
      let v ← valueOf ends node
      pure (.inl ((k, v) :: done))
    else do
      expect .blockEnd
      pure (.inr done.reverse)) []

/-! ### Brackets -/

/-- Builds a part and adds it to those in front, or ends at a closing token.  Parts are
    separated by commas; one more may stand behind the last. -/
def part {α : Type} (stop : Token) (build : Builder α) (done : List α) :
    Builder (List α ⊕ List α) := do
  if ← isNext [stop] then
    drop
    pure (.inr done.reverse)
  else
    unless done.isEmpty do expect .comma
    if ← isNext [stop] then
      drop
      pure (.inr done.reverse)
    else return .inl ((← build) :: done)

/-- An item in brackets; one key with its value is a mapping of its own. -/
def flowItem (node : Builder Node) : Builder Node := do
  let ends : List Token := [.comma, .closeBracket]
  if ← isNext [.key] then
    drop
    let k ←
      if ← isNext (.value :: ends) then do
        drop
        pure Node.empty
      else node
    let v ← valueOf ends node
    pure (.mapping [(k, v)] none)
  else node

/-- A key in braces, and its value. -/
def flowField (node : Builder Node) : Builder (Node × Node) := do
  let ends : List Token := [.comma, .closeBrace]
  if ← isNext [.key] then
    drop
    let k ← unlessNext (.value :: ends) node
    let v ← valueOf ends node
    pure (k, v)
  else return (← node, .empty)

/-! ### Nodes -/

/-- What a tag stands for, with or without a handle. -/
def expandTag (handle : Option String) (suffix : Tag) : Builder Tag := do
  match handle with
  | none => pure suffix
  | some name => return (← orFail ((← get).handles.lookup name)).append suffix

/-- Takes a tag, if one comes next. -/
def tag? : Builder (Option Tag) := do
  match ← peek? with
  | some (.tag handle suffix) => do
    drop
    return some (← expandTag handle suffix)
  | _ => pure none

/-- Takes an anchor, if one comes next. -/
def anchor? : Builder (Option String) := do
  match ← peek? with
  | some (.anchor name) => do
    drop
    pure (some name)
  | _ => pure none

/-- Takes an anchor and a tag, in either order, where they come next. -/
def properties : Builder (Option String × Option Tag) := do
  match ← anchor? with
  | some name => return (some name, ← tag?)
  | none => do
    let tag ← tag?
    let anchor ← if tag.isSome then anchor? else pure none
    pure (anchor, tag)

/-- Gives a name its number: as many names as there were before. -/
def announce (name : String) : Builder Nat := do
  let d ← get
  let number := d.numbers.length
  set { d with
    numbers := (name, number) :: d.numbers.filter (·.1 != name)
    holders := (number, d.anchors) :: d.holders
    anchors := d.anchors + 1 }
  pure d.anchors

/-- Keeps the node behind an anchor. -/
def keep (anchor : Nat) (n : Node) : Builder Unit :=
  modify fun d => { d with nodes := (anchor, n) :: d.nodes }

/-- Builds what stands behind the properties of a node.  Blocks cannot start in
    brackets, and items that are not indented only behind a key. -/
def content (node : (inBlock behindKey : Bool) → Builder Node) (inBlock behindKey : Bool)
    (hasProperties : Bool) (tag : Option Tag) : Builder Node := do
  match ← peek? with
  | some (.scalar text isPlain) => do
    drop
    pure (.scalar text isPlain tag)
  | some .openBracket => do
    drop
    return .sequence (← loop (part .closeBracket (flowItem (node false false))) []) tag
  | some .openBrace => do
    drop
    return .mapping (← loop (part .closeBrace (flowField (node false false))) []) tag
  | some .dash =>
    if behindKey then return .sequence (← flushItems (node true false)) tag
    else if hasProperties then pure (.scalar "" true tag)
    else failure
  | some .blockSequence =>
    if inBlock then do
      drop
      return .sequence (← blockItems (node true false)) tag
    else if hasProperties then pure (.scalar "" true tag)
    else failure
  | some .blockMapping =>
    if inBlock then do
      drop
      return .mapping (← blockFields (node true true)) tag
    else if hasProperties then pure (.scalar "" true tag)
    else failure
  | _ => if hasProperties then pure (.scalar "" true tag) else failure

/-- Builds a node of at most `levels` levels. -/
def node : (levels : Nat) → (inBlock behindKey : Bool) → Builder Node
  | 0, _, _ => failure
  | levels + 1, inBlock, behindKey => do
    match ← peek? with
    | some (.alias name) => do
      drop
      return .alias (← orFail ((← get).numbers.lookup name))
    | _ => do
      let (name, tag) ← properties
      let anchor ← name.mapM announce
      let n ← content (node levels) inBlock behindKey (name.isSome || tag.isSome) tag
      if let some anchor := anchor then keep anchor n
      pure n

/-! ## §2. Documents -/

/-- The handles that need no directive. -/
def standardHandles : List (String × Tag) :=
  [("!", .ofString "!"), ("!!", .ofString Tag.standardFront)]

/-- Takes the directives in front of a document; `versioned` says whether its version
    was given already.  Nothing is given twice. -/
def directives : Builder Unit :=
  loop (fun (versioned : Bool) => do
    match ← peek? with
    | some (.version major minor) => do
      drop
      if versioned || major != 1 || (minor != 1 && minor != 2) then failure
      pure (.inl true)
    | some (.handle name expansion) => do
      drop
      let d ← get
      if (d.handles.lookup name).isSome then failure
      set { d with handles := (name, expansion) :: d.handles }
      pure (.inl versioned)
    | _ => pure (.inr ())) false

/-- Does a document start with its mark, or with directives? -/
def startsExplicitly : Option Token → Bool
  | some .documentStart | some (.version ..) | some (.handle ..) => true
  | _ => false

/-- Builds the root of a document. -/
def root : Builder (Option Node) := do
  let first ← peek?
  if first.isNone then pure none
  else
    let explicit := startsExplicitly first
    if explicit then
      directives
      expect .documentStart
    modify fun d => { d with handles := d.handles ++ standardHandles }
    let next ← peek?
    if explicit && (next.isNone || next == some .documentEnd || startsExplicitly next) then
      pure (some .empty)
    else return some (← node (maxLevels + 1) true false)

/-- Builds a document, the only one of its text. -/
def document : Builder Document := do
  let r ← root
  loop (fun _ => do
    if ← isNext [.documentEnd] then
      drop
      pure (.inl ())
    else pure (.inr ())) ()
  let d ← get
  if !d.tokens.isEmpty then failure
  let anchored := d.holders.filterMap fun (number, anchor) =>
    (d.nodes.lookup anchor).map fun n => (number, n)
  pure ⟨r, anchored⟩

end Builder

/-- The document of a text; `none` if the text is malformed, or holds several. -/
def Document.parse? (text : String) : Option Document := do
  let tokens ← Token.readAll? text
  let (document, _) ← Builder.document.run ⟨tokens, [], [], [], 0, []⟩
  some document

end TagExpander.Yaml
