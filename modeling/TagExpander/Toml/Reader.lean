/-
  TagExpander.Toml.Reader — values read from a TOML document.

  Everything of the format is read, so that a faulty document is refused; of dates,
  times and floating-point numbers only the form is checked.
-/

import TagExpander.Decimal
import TagExpander.Text.Basic
import TagExpander.Text.Reader
import TagExpander.Toml.Value

namespace TagExpander.Toml

open Text (Reader orFail)
open Text.Reader

/-! ## §1. Blanks and comments -/

/-- The blanks inside a line. -/
def isSpace (c : Char) : Bool :=
  c == ' ' || c == '\t'

/-- A control character, which may stand nowhere; tabs are none. -/
def isControl (c : Char) : Bool :=
  (c.toNat < 0x20 && c != '\t') || c == '\x7f'

/-- Passes over blanks inside a line. -/
def skipSpace : Reader Unit :=
  skipWhile isSpace

/-- Takes a line break, if it comes next, as it is written. -/
def lineBreak? : Reader (Option (List Char)) := do
  if ← accept "\n" then pure (some ['\n'])
  else if ← accept "\r\n" then pure (some ['\r', '\n'])
  else pure none

/-- Passes over a line break, if it comes next. -/
def acceptLineBreak : Reader Bool := return (← lineBreak?).isSome

/-- Passes over a comment, if it comes next. -/
def skipComment : Reader Unit := do
  if ← accept "#" then skipWhile fun c => !isControl c

/-- Passes over blanks, comments and line breaks. -/
def skipLines : Reader Unit :=
  loop (fun _ => do
    skipSpace
    skipComment
    if ← acceptLineBreak then pure (.inl ()) else pure (.inr ())) ()

/-- The end of a line: blanks, a comment, and a line break or the end of the text. -/
def endLine : Reader Unit := do
  skipSpace
  skipComment
  if ← acceptLineBreak then pure () else if ← atEnd then pure () else failure

/-! ## §2. Strings -/

/-- Reads the character that a given number of hexadecimal digits stand for. -/
def hexChar (digits : Nat) : Reader Char := do
  let n := Text.number 16 (← exactly (Text.isDigitOf 16) digits)
  if n.isValidChar then pure (Char.ofNat n) else failure

/-- Reads an escape from behind its backslash. -/
def escape : Reader Char := do
  match ← next with
  | 'b' => pure '\x08'
  | 't' => pure '\t'
  | 'n' => pure '\n'
  | 'f' => pure '\x0c'
  | 'r' => pure '\r'
  | 'e' => pure '\x1b'
  | '"' => pure '"'
  | '\\' => pure '\\'
  | 'x' => hexChar 2
  | 'u' => hexChar 4
  | 'U' => hexChar 8
  | _ => failure

/-- Reads a string on one line from behind its opening mark. -/
def basicString : Reader String :=
  loop (fun done => do
    match ← next with
    | '"' => pure (.inr (String.ofList done.reverse))
    | '\\' => return .inl ((← escape) :: done)
    | c => if isControl c then failure else pure (.inl (c :: done))) []

/-- Reads a literal string on one line from behind its opening mark. -/
def literalString : Reader String :=
  loop (fun done => do
    match ← next with
    | '\'' => pure (.inr (String.ofList done.reverse))
    | c => if isControl c then failure else pure (.inl (c :: done))) []

/-- Up to two marks may stand in front of the three that close a string. -/
def closingMarks (mark : Char) : Reader (Option (List Char)) := do
  let three := String.ofList [mark, mark, mark]
  if ← accept three then
    let extra := ((← ahead).takeWhile (· == mark)).take 2
    let _ ← exactly (· == mark) extra.length
    pure (some extra)
  else pure none

/-- Passes over the blanks and line breaks behind a backslash at the end of a line. -/
def continueLine : Reader Unit := do
  skipSpace
  if ← acceptLineBreak then
    loop (fun _ => do
      skipSpace
      if ← acceptLineBreak then pure (.inl ()) else pure (.inr ())) ()
  else failure

/-- Reads a string over several lines from behind its opening marks.  Its line breaks
    stay as they are written. -/
def multilineString (mark : Char) (escapes : Bool) : Reader String := do
  let _ ← acceptLineBreak
  loop (fun done => do
    match ← closingMarks mark with
    | some extra => pure (.inr (String.ofList (extra ++ done).reverse))
    | none =>
      match ← lineBreak? with
      | some written => pure (.inl (written.reverse ++ done))
      | none =>
        match ← next with
        | '\\' =>
          if !escapes then pure (.inl ('\\' :: done))
          else
            match ← peek? with
            | some ' ' | some '\t' | some '\n' | some '\r' => do
              continueLine
              pure (.inl done)
            | _ => return .inl ((← escape) :: done)
        | c => if isControl c then failure else pure (.inl (c :: done))) []

/-- Reads a string, if one comes next. -/
def string? : Reader (Option String) := do
  if ← accept "\"\"\"" then return some (← multilineString '"' true)
  else if ← accept "'''" then return some (← multilineString '\'' false)
  else if ← accept "\"" then return some (← basicString)
  else if ← accept "'" then return some (← literalString)
  else pure none

/-! ## §3. Keys -/

/-- The characters of a key without quotes. -/
def isKeyChar (c : Char) : Bool :=
  c.isAlphanum || c == '_' || c == '-'

/-- Reads one part of a key. -/
def simpleKey : Reader String := do
  if ← accept "\"" then basicString
  else if ← accept "'" then literalString
  else
    let cs ← takeWhile isKeyChar
    if cs.isEmpty then failure else pure (String.ofList cs)

/-- The most parts of a key. -/
def maxKeyParts : Nat := 80

/-- Reads a key: the parts in front of its last one, and the last one. -/
def key : Reader (List String × String) :=
  loop (fun path => do
    if maxKeyParts ≤ path.length then failure
    skipSpace
    let k ← simpleKey
    skipSpace
    if ← accept "." then pure (.inl (k :: path)) else pure (.inr (path.reverse, k))) []

/-! ## §4. Numbers and dates -/

/-- Are these digits of a base, with single underscores between them? -/
def isDigitRun (isDigit : Char → Bool) (cs : List Char) : Bool :=
  (cs.splitOn '_').all fun part => !part.isEmpty && part.all isDigit

/-- A decimal number without leading zeros. -/
def isDecimal (cs : List Char) : Bool :=
  isDigitRun Char.isDigit cs && (cs == ['0'] || cs.head? != some '0')

/-- The number that digits of a base spell; underscores do not count. -/
def digitsValue (base : Nat) (cs : List Char) : Nat :=
  Text.number base (cs.filter (· != '_'))

/-- The number that digits of a base spell, if they do. -/
def natural? (base : Nat) (cs : List Char) : Option Int :=
  if isDigitRun (Text.isDigitOf base) cs then some (digitsValue base cs) else none

/-- A sign in front of a number, and the rest. -/
def splitSign : List Char → Option Char × List Char
  | '+' :: cs => (some '+', cs)
  | '-' :: cs => (some '-', cs)
  | cs => (none, cs)

/-- A whole number of at most 128 bits, signed or unsigned. -/
def integer? (cs : List Char) : Option Int :=
  let n? : Option Int :=
    match cs with
    | '0' :: 'x' :: ds => natural? 16 ds
    | '0' :: 'o' :: ds => natural? 8 ds
    | '0' :: 'b' :: ds => natural? 2 ds
    | cs =>
      let (sign, ds) := splitSign cs
      if isDecimal ds then
        let n : Int := digitsValue 10 ds
        some (if sign == some '-' then -n else n)
      else none
  n?.filter (Word.fits 128)

/-- The digits of an exponent, behind its mark. -/
def isExponent (cs : List Char) : Bool :=
  isDigitRun Char.isDigit (splitSign cs).2

/-- Cuts a text at the first character that satisfies a test, which is left out. -/
def cutAt (p : Char → Bool) (cs : List Char) : List Char × Option (List Char) :=
  match cs.dropWhile fun c => !p c with
  | [] => (cs, none)
  | _ :: rest => (cs.takeWhile fun c => !p c, some rest)

/-- A floating-point number that is finite, or spelled as infinite or undefined. -/
def isFloat (cs : List Char) : Bool :=
  let (_, body) := splitSign cs
  if body == ['i', 'n', 'f'] || body == ['n', 'a', 'n'] then true
  else
    let (mantissa, exponent) := cutAt (fun c => c == 'e' || c == 'E') body
    let (whole, fraction) := cutAt (· == '.') mantissa
    let fractionDigits := fraction.getD []
    let wellFormed :=
      isDecimal whole && fraction.all (isDigitRun Char.isDigit) && exponent.all isExponent &&
        (fraction.isSome || exponent.isSome)
    let (sign, exponentDigits) := splitSign (exponent.getD ['0'])
    let e : Int := digitsValue 10 exponentDigits
    let scale : Int :=
      (if sign == some '-' then -e else e) - (fractionDigits.filter (· != '_')).length
    let digits := digitsValue 10 (whole ++ fractionDigits)
    wellFormed && !(Decimal.nearest digits scale).isInf

/-- The number of days in a month. -/
def daysIn (year month : Nat) : Nat :=
  if month == 2 then
    if (year % 4 == 0 && year % 100 != 0) || year % 400 == 0 then 29 else 28
  else if month == 4 || month == 6 || month == 9 || month == 11 then 30
  else 31

/-- The value of a number of decimal digits. -/
def fixedNumber (digits : Nat) : Reader Nat := do
  return digitsValue 10 (← exactly Char.isDigit digits)

/-- A calendar date. -/
def date : Reader Unit := do
  let year ← fixedNumber 4
  expect "-"
  let month ← fixedNumber 2
  expect "-"
  let day ← fixedNumber 2
  if 1 ≤ month && month ≤ 12 && 1 ≤ day && day ≤ daysIn year month then pure () else failure

/-- A time of day; the seconds may be left out. -/
def time : Reader Unit := do
  let hour ← fixedNumber 2
  expect ":"
  let minute ← fixedNumber 2
  if ← accept ":" then
    let second ← fixedNumber 2
    if second > 60 then failure
    if ← accept "." then
      if (← takeWhile Char.isDigit).isEmpty then failure
  if hour < 24 && minute < 60 then pure () else failure

/-- A distance from universal time, if one comes next. -/
def offset : Reader Unit := do
  unless ← atEnd do
    let c ← next
    if c == '+' || c == '-' then
      let hour ← fixedNumber 2
      expect ":"
      let minute ← fixedNumber 2
      if hour < 24 && minute < 60 then pure () else failure
    else if c == 'Z' || c == 'z' then pure ()
    else failure

/-- A date, a time, or both, then perhaps with an offset. -/
def isDatetime (cs : List Char) : Bool :=
  let full : Reader Unit := do
    date
    unless ← atEnd do
      let _ ← satisfy fun c => c == 'T' || c == 't' || c == ' '
      time
      offset
  (readAll time cs).isSome || (readAll full cs).isSome

/-- The characters of a value without marks. -/
def isTokenChar (c : Char) : Bool :=
  c.isAlphanum || c == '_' || c == '-' || c == '+' || c == '.' || c == ':'

/-- Reads the characters of a value without marks; a blank may stand between a date
    and a time. -/
def token : Reader (List Char) := do
  let front ← takeWhile isTokenChar
  match ← ahead with
  | ' ' :: c :: _ =>
    if c.isDigit && (readAll date front).isSome then
      let _ ← next
      return front ++ ' ' :: (← takeWhile isTokenChar)
    else pure front
  | _ => pure front

/-- Reads a value without marks. -/
def plainValue : Reader Value := do
  let cs ← token
  if cs == "true".toList then pure (.boolean true)
  else if cs == "false".toList then pure (.boolean false)
  else
    match integer? cs with
    | some n => pure (.integer n)
    | none =>
      if isFloat cs then pure .float
      else if isDatetime cs then pure .datetime
      else failure

/-! ## §5. Values -/

/-- Reads the rest of a list from behind its opening bracket. -/
def listItems (item : Reader Value) : Reader (List Value) :=
  loop (fun done => do
    skipLines
    if ← accept "]" then pure (.inr done.reverse)
    else
      let v ← item
      skipLines
      if ← accept "," then pure (.inl (v :: done))
      else do
        expect "]"
        pure (.inr (v :: done).reverse)) []

/-- Reads a key, the sign `=` and a value. -/
def keyValue (item : Reader Value) : Reader ((List String × String) × Value) := do
  let k ← key
  expect "="
  skipSpace
  return (k, ← item)

/-- Reads the rest of an inline table from behind its opening brace. -/
def inlineFields (item : Reader Value) : Reader Nodes :=
  loop (fun nodes => do
    skipLines
    if ← accept "\x7d" then pure (.inr nodes)
    else
      let ((path, k), v) ← keyValue item
      match nodes.addValue path k v with
      | none => failure
      | some nodes => do
        skipLines
        if ← accept "," then pure (.inl nodes)
        else do
          expect "\x7d"
          pure (.inr nodes)) ([] : Nodes)

/-- Reads a value with at most `levels` levels of lists and inline tables. -/
def value : (levels : Nat) → Reader Value
  | 0 => do
    match ← string? with
    | some s => pure (.string s)
    | none => plainValue
  | levels + 1 => do
    match ← string? with
    | some s => pure (.string s)
    | none =>
      if ← accept "[" then return .array (← listItems (value levels))
      else if ← accept "\x7b" then return .table (Node.toFields (← inlineFields (value levels)))
      else plainValue

/-- The deepest nesting that is read. -/
def maxLevels : Nat := 80

/-! ## §6. Documents -/

/-- A document that is being read: all its tables, and the path of the open one. -/
structure Draft where
  nodes : Nodes
  current : List String
deriving Inhabited

/-- Reads one line of a document: a header, a field, or nothing. -/
def line (d : Draft) : Reader Draft := do
  skipSpace
  if ← accept "[[" then
    let (path, k) ← key
    expect "]]"
    endLine
    return ⟨← orFail (d.nodes.openTables path k), path ++ [k]⟩
  else if ← accept "[" then
    let (path, k) ← key
    expect "]"
    endLine
    return ⟨← orFail (d.nodes.openTable path k), path ++ [k]⟩
  else
    match ← peek? with
    | none | some '\n' | some '\r' | some '#' => do
      endLine
      pure d
    | _ => do
      let ((path, k), v) ← keyValue (value maxLevels)
      endLine
      return ⟨← orFail (d.nodes.addUnder d.current path k v), d.current⟩

/-- Reads a document; a byte order mark may stand in front. -/
def document : Reader (List (String × Value)) := do
  let _ ← accept "\ufeff"
  loop (fun d => do
    if ← atEnd then pure (.inr (Node.toFields d.nodes)) else return .inl (← line d)) ⟨[], []⟩

/-- The fields of a TOML document; `none` if it is not one. -/
def parse? (text : String) : Option (List (String × Value)) :=
  readAll document text.toList

end TagExpander.Toml
