/-
  TagExpander.Json.Reader — values read from their JSON text.

  A whole number that fits 64 bits, signed or unsigned, is kept exactly.  Any other
  number is a floating-point number: its leading digits, as many as fit 64 bits, are
  scaled by a power of ten in floating-point arithmetic.  A number too large to be
  finite is refused, and so is a value with more than 127 levels of nesting.
-/

import TagExpander.Json.Value
import TagExpander.Text.Basic

namespace TagExpander.Json

/-! ## §1. Blanks and literal words -/

/-- The characters that may stand between the parts of a JSON text. -/
def isSpace (c : Char) : Bool :=
  c == ' ' || c == '\n' || c == '\t' || c == '\r'

/-- The text behind its leading blanks. -/
def skipSpace (cs : List Char) : List Char :=
  cs.dropWhile isSpace

/-- The text behind a given word. -/
def afterWord (word : String) (cs : List Char) : Option (List Char) :=
  if word.toList.isPrefixOf cs then some (cs.drop word.length) else none

/-! ## §2. Numbers -/

/-- The largest significand that is kept exactly. -/
def maxSignificand : Nat := Word.count 64 - 1

/-- The largest exponent that is counted exactly. -/
def maxExponent : Nat := Word.count 31 - 1

/-- Digits collected into a number, as long as it stays within a limit; `dropped`
    digits were passed over after that. -/
structure Digits where
  value : Nat
  count : Nat
  dropped : Nat
  rest : List Char
deriving Inhabited

/-- Collects the digits at the start of a text, behind those of `value`. -/
def collect (limit value count dropped : Nat) : List Char → Digits
  | [] => ⟨value, count, dropped, []⟩
  | c :: cs =>
    match Text.digit? 10 c with
    | none => ⟨value, count, dropped, c :: cs⟩
    | some d =>
      if dropped = 0 ∧ value * 10 + d ≤ limit then
        collect limit (value * 10 + d) (count + 1) 0 cs
      else collect limit value count (dropped + 1) cs

/-- The power of ten nearest to `10 ^ n`. -/
def powerOfTen (n : Nat) : Float :=
  Float.ofScientific 1 false n

/-- Scales by a power of ten, in steps of `10 ^ 308`; `none` if the result is not finite. -/
def scaleFrom (x : Float) (exponent : Int) : (steps : Nat) → Option Float
  | 0 => some x
  | steps + 1 =>
    if exponent.natAbs ≤ 308 then
      if 0 ≤ exponent then
        let y := x * powerOfTen exponent.natAbs
        if y.isInf then none else some y
      else some (x / powerOfTen exponent.natAbs)
    else if x == 0 then some x
    else if 0 ≤ exponent then none
    else scaleFrom (x / powerOfTen 308) (exponent + 308) steps

/-- The floating-point number `significand * 10 ^ exponent`.  Four steps of scaling
    take every significand of 64 bits to zero. -/
def scaled (negative : Bool) (significand : Nat) (exponent : Int) : Option Number := do
  let x ← scaleFrom (Float.ofNat significand) exponent 4
  some (.float (if negative then -x else x))

/-- Reads the digits of an exponent and builds the number. -/
def readExponentDigits (negative : Bool) (significand : Nat) (start : Int) (up : Bool)
    (cs : List Char) : Option (Number × List Char) :=
  let e := collect maxExponent 0 0 0 cs
  if e.count = 0 then none
  else if e.dropped ≠ 0 then
    if significand ≠ 0 ∧ up then none
    else some (.float (if negative then -0.0 else 0.0), e.rest)
  else do
    let n ← scaled negative significand (if up then start + e.value else start - e.value)
    some (n, e.rest)

/-- Reads an exponent, if one follows, and builds the number. -/
def readExponent (negative : Bool) (significand : Nat) (start : Int) :
    List Char → Option (Number × List Char)
  | 'e' :: cs | 'E' :: cs =>
    match cs with
    | '+' :: cs => readExponentDigits negative significand start true cs
    | '-' :: cs => readExponentDigits negative significand start false cs
    | cs => readExponentDigits negative significand start true cs
  | cs => do
    let n ← scaled negative significand start
    some (n, cs)

/-- A whole number, exact if it fits 64 bits; a negative zero is a floating-point
    number. -/
def wholeNumber (negative : Bool) (n : Nat) : Number :=
  if !negative then .int n
  else if n = 0 || !Word.fitsSigned 64 (-n) then .float (-(Float.ofNat n))
  else .int (-n)

/-- Reads a number whose sign has been read. -/
def readUnsigned (negative : Bool) (cs : List Char) : Option (Number × List Char) :=
  let whole := collect maxSignificand 0 0 0 cs
  let leadingZero := cs.head? == some '0' && 1 < whole.count + whole.dropped
  if whole.count = 0 ∨ leadingZero then none
  else
    match whole.rest with
    | '.' :: cs =>
      let fraction :=
        collect maxSignificand whole.value 0 0 cs
      if fraction.count + fraction.dropped = 0 then none
      else
        readExponent negative fraction.value ((whole.dropped : Int) - fraction.count)
          fraction.rest
    | c :: cs =>
      if whole.dropped ≠ 0 ∨ c == 'e' ∨ c == 'E' then
        readExponent negative whole.value whole.dropped (c :: cs)
      else some (wholeNumber negative whole.value, c :: cs)
    | [] =>
      if whole.dropped ≠ 0 then readExponent negative whole.value whole.dropped []
      else some (wholeNumber negative whole.value, [])

/-- Reads a number. -/
def readNumber : List Char → Option (Number × List Char)
  | '-' :: cs => readUnsigned true cs
  | cs => readUnsigned false cs

/-! ## §3. Strings -/

/-- Reads four hexadecimal digits. -/
def readHex4 : List Char → Option (Nat × List Char)
  | a :: b :: c :: d :: cs => do
    let a ← Text.digit? 16 a
    let b ← Text.digit? 16 b
    let c ← Text.digit? 16 c
    let d ← Text.digit? 16 d
    some (((a * 16 + b) * 16 + c) * 16 + d, cs)
  | _ => none

/-- Reads the code of a `\u` escape; the first half of a surrogate pair needs the
    second behind it. -/
def readUnicodeEscape (cs : List Char) : Option (Char × List Char) := do
  let (u, cs) ← readHex4 cs
  if 0xD800 ≤ u ∧ u < 0xDC00 then
    match cs with
    | '\\' :: 'u' :: cs =>
      let (v, cs) ← readHex4 cs
      if 0xDC00 ≤ v ∧ v < 0xE000 then
        some (Char.ofNat (0x10000 + (u - 0xD800) * 0x400 + (v - 0xDC00)), cs)
      else none
    | _ => none
  else if 0xDC00 ≤ u ∧ u < 0xE000 then none
  else some (Char.ofNat u, cs)

/-- The character that a one-letter escape stands for. -/
def escape? : Char → Option Char
  | '"' => some '"'
  | '\\' => some '\\'
  | '/' => some '/'
  | 'b' => some '\x08'
  | 'f' => some '\x0c'
  | 'n' => some '\n'
  | 'r' => some '\r'
  | 't' => some '\t'
  | _ => none

/-- Reads a string from behind its opening mark; `done` holds the characters read,
    latest first, and `bound` is no shorter than the text. -/
def readString (done : List Char) :
    (bound : List Char) → List Char → Option (String × List Char)
  | [], _ => none
  | _ :: bound, cs =>
    match cs with
    | [] => none
    | '"' :: cs => some (String.ofList done.reverse, cs)
    | '\\' :: 'u' :: cs => do
      let (c, cs) ← readUnicodeEscape cs
      readString (c :: done) bound cs
    | '\\' :: e :: cs => do
      let c ← escape? e
      readString (c :: done) bound cs
    | c :: cs => if c.toNat < 0x20 ∨ c = '\\' then none else readString (c :: done) bound cs

/-! ## §4. Values -/

/-- Reads a value that holds no others. -/
def readScalar (cs : List Char) : Option (Value × List Char) :=
  match cs with
  | '"' :: cs => do
    let (s, cs) ← readString [] cs cs
    some (.string s, cs)
  | 'n' :: _ => do some (.null, ← afterWord "null" cs)
  | 't' :: _ => do some (.bool true, ← afterWord "true" cs)
  | 'f' :: _ => do some (.bool false, ← afterWord "false" cs)
  | _ => do
    let (n, cs) ← readNumber cs
    some (.number n, cs)

/-- Reads the rest of a list whose next part is an item; `bound` is no shorter than the
    text. -/
def readItems (item : List Char → Option (Value × List Char)) (done : List Value) :
    (bound : List Char) → List Char → Option (List Value × List Char)
  | [], _ => none
  | _ :: bound, cs => do
    let (v, cs) ← item cs
    match skipSpace cs with
    | ',' :: cs => readItems item (v :: done) bound cs
    | ']' :: cs => some ((v :: done).reverse, cs)
    | _ => none

/-- Reads the rest of an object whose next part is a name; `bound` is no shorter than the
    text. -/
def readFields (item : List Char → Option (Value × List Char)) (done : Fields Value) :
    (bound : List Char) → List Char → Option (Fields Value × List Char)
  | [], _ => none
  | _ :: bound, cs =>
    match skipSpace cs with
    | '"' :: cs => do
      let (name, cs) ← readString [] cs cs
      match skipSpace cs with
      | ':' :: cs =>
        let (v, cs) ← item cs
        match skipSpace cs with
        | ',' :: cs => readFields item (done.put name v) bound cs
        | '}' :: cs => some (done.put name v, cs)
        | _ => none
      | _ => none
    | _ => none

/-- Reads a value with at most `levels` levels of lists and objects. -/
def readValue : (levels : Nat) → List Char → Option (Value × List Char)
  | 0, cs =>
    match skipSpace cs with
    | '[' :: _ | '{' :: _ => none
    | cs => readScalar cs
  | levels + 1, cs =>
    match skipSpace cs with
    | '[' :: cs =>
      match skipSpace cs with
      | ']' :: cs => some (.array [], cs)
      | cs => do
        let (items, cs) ← readItems (readValue levels) [] cs cs
        some (.array items, cs)
    | '{' :: cs =>
      match skipSpace cs with
      | '}' :: cs => some (.object [], cs)
      | cs => do
        let (fields, cs) ← readFields (readValue levels) [] cs cs
        some (.object fields, cs)
    | cs => readScalar cs

/-- The deepest nesting that is read. -/
def maxLevels : Nat := 127

/-- The value of a JSON text; `none` if it is not one. -/
def Value.parse? (text : String) : Option Value := do
  let (v, rest) ← readValue maxLevels text.toList
  if (skipSpace rest).isEmpty then some v else none

end TagExpander.Json
