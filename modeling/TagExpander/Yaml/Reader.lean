/-
  TagExpander.Yaml.Reader — readers that know their place.

  In a YAML text indentation makes the structure.  So its readers count lines and
  columns.  They also count bytes, which limit the length of keys.
-/

import TagExpander.Text.Basic
import TagExpander.Text.Reader

namespace TagExpander.Yaml

/-! ## §1. Characters -/

/-- A blank inside a line. -/
def isSpace (c : Char) : Bool :=
  c == ' ' || c == '\t'

/-- A character that ends a line. -/
def isBreak (c : Char) : Bool :=
  c == '\n' || c == '\r' || c == '\u0085' || c == '\u2028' || c == '\u2029'

/-- The characters of names. -/
def isWord (c : Char) : Bool :=
  c.isAlphanum || c == '_' || c == '-'

/-- A character that may stand in a text: no control character but tabs and line
    breaks. -/
def isAllowed (c : Char) : Bool :=
  c == '\t' || c == '\n' || c == '\r' || (' ' ≤ c && c ≤ '~') || c == '\u0085' ||
    ('\u00a0' ≤ c && c ≤ '\ufffd') || 0xffff < c.toNat

/-- Does a text start with a blank or a line break, or is there none? -/
def startsBlank : List Char → Bool
  | [] => true
  | c :: _ => isSpace c || isBreak c

/-! ## §2. Cursors -/

/-- A place in a text. -/
structure Cursor where
  /-- The text that follows. -/
  rest : List Char
  /-- Number of bytes in front, in UTF-8. -/
  bytes : Nat
  /-- Number of line breaks in front. -/
  line : Nat
  /-- Number of characters in front on the same line. -/
  column : Nat
deriving DecidableEq, Inhabited

/-- The start of a text. -/
def Cursor.start (cs : List Char) : Cursor :=
  ⟨cs, 0, 0, 0⟩

/-- Does a line start here that is the mark of a document, `---` or `...`? -/
def Cursor.isDocumentMark (c : Cursor) (mark : Char) : Bool :=
  c.column == 0 && [mark, mark, mark].isPrefixOf c.rest && startsBlank (c.rest.drop 3)

/-! ## §3. Readers -/

/-- Takes a part of a text from a place on, or fails. -/
abbrev Reader (α : Type) := StateT Cursor Option α

namespace Reader

/-- The place of the reader. -/
def here : Reader Cursor := get

/-- The text ahead. -/
def ahead : Reader (List Char) := return (← get).rest

/-- Passes over a number of characters of a line. -/
def skip (n : Nat) : Reader Unit :=
  modify fun c =>
    { c with
      rest := c.rest.drop n
      bytes := c.bytes + Text.bytes (c.rest.take n)
      column := c.column + n }

/-- Takes the next character of a line. -/
def next : Reader Char := do
  match ← ahead with
  | [] => failure
  | c :: _ => do
    skip 1
    pure c

/-- Takes a character, if it comes next. -/
def accept (c : Char) : Reader Bool := do
  if (← ahead).head? == some c then
    skip 1
    pure true
  else pure false

/-- Takes the longest run of characters of a line that satisfy a test. -/
def takeWhile (p : Char → Bool) : Reader (List Char) := do
  let cs := (← ahead).takeWhile p
  skip cs.length
  pure cs

/-- Takes a line break.  Separators of lines and of paragraphs stay what they are, all
    other line breaks become line feeds. -/
def lineBreak : Reader Char := do
  let c ← here
  match c.rest with
  | '\r' :: '\n' :: rest => do
    set (⟨rest, c.bytes + 2, c.line + 1, 0⟩ : Cursor)
    pure '\n'
  | b :: rest =>
    if isBreak b then
      set (⟨rest, c.bytes + b.utf8Size, c.line + 1, 0⟩ : Cursor)
      pure (if b == '\u2028' || b == '\u2029' then b else '\n')
    else failure
  | [] => failure

/-- Goes round a loop until it ends with a result; every round but the last takes at
    least one character. -/
def loop {α β : Type} (step : β → Reader (β ⊕ α)) (b : β) : Reader α := do
  Text.loopOver step (← ahead) b

/-- Passes over a comment, if one comes next. -/
def skipComment : Reader Unit := do
  if (← ahead).head? == some '#' then
    let _ ← takeWhile fun c => !isBreak c

/-- Passes over the rest of a line, which holds at most blanks and a comment. -/
def endLine : Reader Unit := do
  let _ ← takeWhile isSpace
  skipComment
  unless (← ahead).isEmpty do
    let _ ← lineBreak

end Reader

end TagExpander.Yaml
