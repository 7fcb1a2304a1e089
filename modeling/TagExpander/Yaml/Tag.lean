/-
  TagExpander.Yaml.Tag — the tags of nodes.

      !name     !!name     !handle!name     !<name>     !

  A tag is a row of octets: escapes such as `%C3` may spell any of them.  Its text is
  what they encode; octets that encode no character make it unreadable.
-/

import TagExpander.Yaml.Scalar

namespace TagExpander.Yaml

/-- A tag, or a part of one. -/
structure Tag where
  /-- The text; `\ufffd` stands where octets encode no character. -/
  text : String
  /-- Do all octets encode characters? -/
  isReadable : Bool
deriving DecidableEq, Inhabited

namespace Tag

/-- The tag of a text. -/
def ofString (text : String) : Tag :=
  ⟨text, true⟩

/-- The tag of its characters, `none` where there is no character; a zero octet ends
    it. -/
def ofChars (cs : List (Option Char)) : Tag :=
  let cs := cs.takeWhile (· != some '\x00')
  ⟨String.ofList (cs.map (·.getD '\ufffd')), cs.all Option.isSome⟩

/-- A tag that is put together from two parts. -/
def append (front back : Tag) : Tag :=
  ⟨front.text ++ back.text, front.isReadable && back.isReadable⟩

/-- Is this a tag of the document itself? -/
def isLocal (t : Tag) : Bool :=
  t.text.startsWith "!"

/-- What the tags of the standard kinds of scalars start with. -/
def standardFront : String := "tag:yaml.org,2002:"

/-- The tag of a standard kind of scalars. -/
def standard (kind : String) : Tag :=
  .ofString (standardFront ++ kind)

end Tag

/-! ## Reading -/

open Reader

/-- Reads an octet of a tag: `%` and two hexadecimal digits. -/
def octet : Reader Nat := do
  if (← next) != '%' then failure
  Scalar.hexNumber 0 2

/-- Reads the further octets of a character; `n` is the value of those in front. -/
def moreOctets (n : Nat) : (count : Nat) → Reader Nat
  | 0 => pure n
  | count + 1 => do
    let o ← octet
    if o / 64 == 2 then moreOctets (n * 64 + o % 64) count else failure

/-- The character of a number that is written in octets: at least `least`, for fewer
    octets would do below. -/
def encodedChar? (least n : Nat) : Option Char :=
  if least ≤ n && n.isValidChar then some (Char.ofNat n) else none

/-- Reads the octets of a character, which are as many as the first of them says. -/
def escapedChar : Reader (Option Char) := do
  let o ← octet
  if o < 0x80 then pure (encodedChar? 0 o)
  else if o / 32 == 6 then return encodedChar? 0x80 (← moreOctets (o % 32) 1)
  else if o / 16 == 14 then return encodedChar? 0x800 (← moreOctets (o % 16) 2)
  else if o / 8 == 30 then return encodedChar? 0x10000 (← moreOctets (o % 8) 3)
  else failure

/-- The characters of a tag; the marks of brackets only where nothing else could end
    it. -/
def isTagChar (delimited : Bool) (c : Char) : Bool :=
  isWord c || ";/?:@&=+$.!~*'()".contains c || (delimited && ",[]".contains c)

/-- Reads the characters of a tag. -/
def tagChars (delimited : Bool) : Reader (List (Option Char)) :=
  loop (fun done => do
    match (← ahead).head? with
    | some '%' => return .inl ((← escapedChar) :: done)
    | some c =>
      if isTagChar delimited c then do
        skip 1
        pure (.inl (some c :: done))
      else pure (.inr done.reverse)
    | none => pure (.inr done.reverse)) []

/-- Reads the characters of a tag; there must be some. -/
def tagText (delimited : Bool) : Reader Tag := do
  let cs ← tagChars delimited
  if cs.isEmpty then failure else pure (.ofChars cs)

/-- Reads a word behind `!`, and the `!` behind the word, if there is one. -/
def tagHandle : Reader (List Char × Bool) := do
  if !(← accept '!') then failure
  let word ← takeWhile isWord
  let closed ← accept '!'
  pure (word, closed)

/-- The handle of a word. -/
def handleName (word : List Char) : String :=
  "!" ++ String.ofList word ++ "!"

/-- Reads a tag: its handle, if it has one, and the rest.  A `!` alone has none. -/
def tag (inFlow : Bool) : Reader (Option String × Tag) := do
  let t ←
    if ['!', '<'].isPrefixOf (← ahead) then do
      skip 2
      let name ← tagText true
      if ← accept '>' then pure (none, name) else failure
    else do
      let (word, closed) ← tagHandle
      if closed then pure (some (handleName word), ← tagText false)
      else do
        let name := Tag.ofChars (word.map some ++ (← tagChars false))
        pure (if name.text.isEmpty then (none, .ofString "!") else (some "!", name))
  let rest ← ahead
  if (inFlow && rest.head? == some ',') || startsBlank rest then pure t else failure

end TagExpander.Yaml
