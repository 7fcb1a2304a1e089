/-
  TagExpander.Yaml.Token — the tokens of a YAML text.

  Outside of brackets the columns at which lines start make the structure: a line that
  starts further right opens a block, one that starts further left closes blocks.  The
  tokens say so, as if blocks were put into brackets, too.

  A key without `?` is known as such only at the colon behind it.  So every place at
  which a key can start is kept in mind, one for each level of brackets, until the colon
  comes or cannot come any more; the tokens of the key are then put in at that place.
-/

import TagExpander.Yaml.Tag

namespace TagExpander.Yaml

/-- A token. -/
inductive Token where
  /-- `%YAML 1.2` -/
  | version (major minor : Nat)
  /-- `%TAG !e! tag:example.com,2000:` -/
  | handle (name : String) (expansion : Tag)
  /-- `---` -/
  | documentStart
  /-- `...` -/
  | documentEnd
  /-- The start of a block of items behind `-`. -/
  | blockSequence
  /-- The start of a block of keys and values. -/
  | blockMapping
  /-- The end of a block. -/
  | blockEnd
  | openBracket
  | closeBracket
  | openBrace
  | closeBrace
  | comma
  /-- `-` in front of an item. -/
  | dash
  /-- The start of a key, with or without `?`. -/
  | key
  /-- `:` in front of a value. -/
  | value
  /-- `*name` -/
  | alias (name : String)
  /-- `&name` -/
  | anchor (name : String)
  /-- `!suffix`, `!!suffix`, `!handle!suffix`, or without a handle `!<suffix>` or `!`. -/
  | tag (handle : Option String) (suffix : Tag)
  /-- A text; plain, or in quotes or in a block. -/
  | scalar (text : String) (isPlain : Bool)
deriving DecidableEq, Inhabited

/-! ## §1. Layout -/

/-- The most levels of sequences and mappings in a document. -/
def maxLevels : Nat := 128

/-- A place at which a key may have started. -/
structure KeyPlace where
  /-- Must a key start here?  So it is where a line starts in the column of its
      block. -/
  required : Bool
  /-- Number of tokens in front. -/
  position : Nat
  /-- The place in the text. -/
  start : Cursor
deriving Inhabited

/-- The longest key without `?`, in bytes, from its start to the colon. -/
def maxKeyLength : Nat := 1024

/-- Can a key that started here not end at a cursor any more? -/
def KeyPlace.isOver (k : KeyPlace) (c : Cursor) : Bool :=
  k.start.line < c.line || k.start.bytes + maxKeyLength < c.bytes

/-- The structure of the text so far. -/
structure Layout where
  /-- The columns of the open blocks, the innermost first. -/
  blocks : List Nat
  /-- Where a key may have started, on this level of brackets. -/
  keyPlace : Option KeyPlace
  /-- The same for the levels around it, the innermost first. -/
  outer : List (Option KeyPlace)
  /-- May a key without `?` start here? -/
  keyAllowed : Bool
  /-- The tokens so far, the latest first. -/
  tokens : List Token
  /-- Number of tokens so far. -/
  count : Nat
deriving Inhabited

namespace Layout

/-- The structure of an empty text. -/
def start : Layout :=
  ⟨[], none, [], true, [], 0⟩

/-- Is this place inside brackets? -/
def inFlow (l : Layout) : Bool :=
  !l.outer.isEmpty

/-- Adds a token at the end. -/
def add (l : Layout) (t : Token) : Layout :=
  { l with tokens := t :: l.tokens, count := l.count + 1 }

/-- Puts in a token behind the first `position` ones. -/
def insert (l : Layout) (position : Nat) (t : Token) : Layout :=
  let later := l.count - position
  { l with tokens := l.tokens.take later ++ t :: l.tokens.drop later, count := l.count + 1 }

/-- Says whether a key may start next. -/
def allowKey (l : Layout) (allowed : Bool) : Layout :=
  { l with keyAllowed := allowed }

/-- Opens a block in a column, if it is right of the innermost block; its token goes
    behind the first `position` ones. -/
def openAt (l : Layout) (column position : Nat) (t : Token) : Layout :=
  if !l.inFlow && l.blocks.head?.all (· < column) then
    { l.insert position t with blocks := column :: l.blocks }
  else l

/-- Closes the blocks whose columns satisfy a test, from the innermost one on. -/
def closeWhile (l : Layout) (p : Nat → Bool) : Layout :=
  if l.inFlow then l
  else
    let closed := (l.blocks.takeWhile p).length
    { l with
      blocks := l.blocks.dropWhile p
      tokens := List.replicate closed Token.blockEnd ++ l.tokens
      count := l.count + closed }

/-- Closes the blocks right of a column. -/
def closeTo (l : Layout) (column : Nat) : Layout :=
  l.closeWhile (column < ·)

/-- Closes all blocks. -/
def closeAll (l : Layout) : Layout :=
  l.closeWhile fun _ => true

/-- Forgets where a key may have started, unless one must have. -/
def dropKey (l : Layout) : Option Layout :=
  if l.keyPlace.any KeyPlace.required then none else some { l with keyPlace := none }

/-- Keeps in mind that a key may start at a cursor, if it may. -/
def noteKey (l : Layout) (c : Cursor) : Option Layout :=
  if l.keyAllowed then
    let required := !l.inFlow && l.blocks.head? == some c.column
    l.dropKey.map fun l => { l with keyPlace := some ⟨required, l.count, c⟩ }
  else some l

/-- Forgets the keys that cannot end at a cursor any more; fails if one of them must. -/
def expire (l : Layout) (c : Cursor) : Option Layout :=
  let isOver (k : Option KeyPlace) : Bool := k.any (·.isOver c)
  if (l.keyPlace :: l.outer).any fun k => isOver k && k.any KeyPlace.required then none
  else
    let keep (k : Option KeyPlace) : Option KeyPlace := if isOver k then none else k
    some { l with keyPlace := keep l.keyPlace, outer := l.outer.map keep }

/-- Enters brackets. -/
def enter (l : Layout) : Layout :=
  { l with keyPlace := none, outer := l.keyPlace :: l.outer }

/-- Leaves brackets, if there are any. -/
def leave (l : Layout) : Layout :=
  match l.outer with
  | k :: outer => { l with keyPlace := k, outer }
  | [] => l

/-- The column of a line must be right of the innermost block for its text to belong to
    a scalar. -/
def scalarColumn (l : Layout) : Nat :=
  (l.blocks.head?.map (· + 1)).getD 0

end Layout

/-! ## §2. Directives and names -/

open Text (orFail)
open Reader

/-- Reads a number of a version. -/
def versionNumber : Reader Nat := do
  let digits ← takeWhile Char.isDigit
  if digits.isEmpty || 9 < digits.length then failure else pure (Text.number 10 digits)

/-- Reads the name of an anchor or an alias from its indicator on. -/
def anchorName : Reader String := do
  skip 1
  let name ← takeWhile isWord
  let rest ← ahead
  let ended := startsBlank rest || rest.head?.any fun c => "?:,]\x7d%@\x60".contains c
  if name.isEmpty || !ended then failure else pure (String.ofList name)

/-- Reads a directive from its `%` on. -/
def directive : Reader Token := do
  skip 1
  let name ← takeWhile isWord
  if !startsBlank (← ahead) then failure
  let _ ← takeWhile isSpace
  let t ←
    if name == "YAML".toList then do
      let major ← versionNumber
      if !(← accept '.') then failure
      pure (Token.version major (← versionNumber))
    else if name == "TAG".toList then do
      let (word, closed) ← tagHandle
      if !closed && !word.isEmpty then failure
      let blanks ← takeWhile isSpace
      if blanks.isEmpty then failure
      let expansion ← tagText true
      if !startsBlank (← ahead) then failure
      pure (Token.handle (if closed then handleName word else "!") expansion)
    else failure
  endLine
  pure t

/-! ## §3. Reading tokens -/

/-- Passes over blanks, comments and line breaks.  Outside of brackets a key may start
    behind a line break, and tabs may not stand where a key may start. -/
def skipToToken (l : Layout) : Reader Layout :=
  loop (fun (l : Layout) => do
    if (← here).column == 0 then
      let _ ← accept '\ufeff'
    let _ ← takeWhile fun c => c == ' ' || (c == '\t' && (l.inFlow || !l.keyAllowed))
    skipComment
    match ← ahead with
    | [] => pure (.inr l)
    | c :: _ =>
      if isBreak c then do
        let _ ← lineBreak
        pure (.inl (l.allowKey (l.keyAllowed || !l.inFlow)))
      else pure (.inr l)) l

/-- Is this the indicator `c`, with a blank behind it where that is needed? -/
def isIndicator (c : Char) (blankNeeded : Bool) : List Char → Bool
  | [] => false
  | d :: cs => d == c && (!blankNeeded || startsBlank cs)

/-- May a plain scalar start with this text? -/
def startsPlain (inFlow : Bool) : List Char → Bool
  | [] => false
  | '-' :: cs => !cs.head?.any isSpace
  | c :: cs =>
    if c == '?' || c == ':' then !inFlow && !startsBlank cs
    else !startsBlank (c :: cs) && !",[]\x7b\x7d#&*!|>'\"%@\x60".contains c

/-- A mark at the start of a line that ends all blocks. -/
def endBlocks (l : Layout) : Reader Layout := do
  return (← orFail l.closeAll.dropKey).allowKey false

/-- Reads the `-` of an item. -/
def dash (l : Layout) (c : Cursor) : Reader Layout := do
  if !l.inFlow && !l.keyAllowed then failure
  let l ← orFail (l.openAt c.column l.count .blockSequence).dropKey
  skip 1
  pure ((l.allowKey true).add .dash)

/-- Reads the `?` of a key. -/
def keyMark (l : Layout) (c : Cursor) : Reader Layout := do
  if !l.inFlow && !l.keyAllowed then failure
  let l ← orFail (l.openAt c.column l.count .blockMapping).dropKey
  skip 1
  pure ((l.allowKey !l.inFlow).add .key)

/-- Reads the `:` of a value; behind a key without `?`, the key is put in. -/
def valueMark (l : Layout) (c : Cursor) : Reader Layout := do
  skip 1
  match l.keyPlace with
  | some k =>
    let l := (l.insert k.position .key).openAt k.start.column k.position .blockMapping
    pure (({ l with keyPlace := none }.allowKey false).add .value)
  | none =>
    if !l.inFlow && !l.keyAllowed then failure
    let l := l.openAt c.column l.count .blockMapping
    pure ((l.allowKey !l.inFlow).add .value)

/-- Reads one token, at which a key may start, with a reader of its own. -/
def keyToken (l : Layout) (c : Cursor) (read : Reader Token) : Reader Layout := do
  let l ← orFail (l.noteKey c)
  let t ← read
  pure ((l.allowKey false).add t)

/-- Reads an opening bracket or brace. -/
def opening (l : Layout) (c : Cursor) (t : Token) : Reader Layout := do
  if maxLevels ≤ l.outer.length then failure
  let l ← orFail (l.noteKey c)
  skip 1
  pure ((l.enter.allowKey true).add t)

/-- Reads a closing bracket or brace. -/
def closing (l : Layout) (t : Token) : Reader Layout := do
  let l ← orFail l.dropKey
  skip 1
  pure ((l.leave.allowKey false).add t)

/-- Reads a block scalar. -/
def blockScalar (l : Layout) (literal : Bool) : Reader Layout := do
  let l ← orFail l.dropKey
  skip 1
  let text ← Scalar.block literal l.blocks.head?
  pure ((l.allowKey true).add (.scalar text false))

/-- Reads a quoted scalar. -/
def quotedScalar (piece : Reader (Option (List Char))) : Reader Token := do
  skip 1
  return .scalar (← Scalar.quoted piece) false

/-- Reads a plain scalar; a key may start behind it if it ends behind a line break. -/
def plainScalar (l : Layout) (c : Cursor) : Reader Layout := do
  let l ← orFail (l.noteKey c)
  let (text, afterBreak) ← Scalar.plain l.inFlow l.scalarColumn
  pure ((l.allowKey afterBreak).add (.scalar text true))

/-- Reads the token at a cursor. -/
def tokenAt (l : Layout) (c : Cursor) : Reader Layout := do
  if c.column == 0 && c.rest.head? == some '%' then
    let l ← endBlocks l
    return l.add (← directive)
  else if c.isDocumentMark '-' || c.isDocumentMark '.' then
    let l ← endBlocks l
    skip 3
    return l.add (if c.isDocumentMark '-' then .documentStart else .documentEnd)
  else if isIndicator '-' true c.rest then dash l c
  else if isIndicator '?' (!l.inFlow) c.rest then keyMark l c
  else if isIndicator ':' (!l.inFlow) c.rest then valueMark l c
  else if startsPlain l.inFlow c.rest then plainScalar l c
  else
    match c.rest.head? with
    | some '[' => opening l c .openBracket
    | some '\x7b' => opening l c .openBrace
    | some ']' => closing l .closeBracket
    | some '\x7d' => closing l .closeBrace
    | some ',' => do
      let l ← orFail l.dropKey
      skip 1
      pure ((l.allowKey true).add .comma)
    | some '*' => keyToken l c (.alias <$> anchorName)
    | some '&' => keyToken l c (.anchor <$> anchorName)
    | some '!' => keyToken l c ((fun (handle, t) => .tag handle t) <$> tag l.inFlow)
    | some '\'' => keyToken l c (quotedScalar Scalar.singlePiece)
    | some '"' => keyToken l c (quotedScalar Scalar.doublePiece)
    | some '|' => if l.inFlow then failure else blockScalar l true
    | some '>' => if l.inFlow then failure else blockScalar l false
    | _ => failure

/-- Reads all tokens. -/
def tokens : Reader (List Token) :=
  loop (fun (l : Layout) => do
    let l ← skipToToken l
    let c ← here
    let l ← orFail (l.expire c)
    if c.rest.isEmpty then
      let l ← orFail l.closeAll.dropKey
      pure (.inr l.tokens.reverse)
    else return .inl (← tokenAt (l.closeTo c.column) c)) .start

/-- The tokens of a text; `none` if it has no such structure. -/
def Token.readAll? (text : String) : Option (List Token) :=
  let cs := text.toList
  if cs.all isAllowed then (tokens.run (.start cs)).map Prod.fst else none

end TagExpander.Yaml
