/-
  TagExpander.Json.Printer — values written as JSON text.

  The compact form has no blanks.  The indented form puts every item and every
  field on a line of its own, two spaces further in.  Inside strings only the
  quotation mark, the backslash and the control characters are escaped.

  Floating-point numbers have the fewest digits that read back.  Between `1e-5`
  and `1e16` they are written without exponent, with `.0` if they are whole.
-/

import TagExpander.Decimal
import TagExpander.Json.Value

namespace TagExpander.Json

/-! ## §1. Numbers -/

/-- The layout of floating-point numbers. -/
structure FloatLayout where
  /-- The least exponent of ten that is written positionally. -/
  least : Int
  /-- The first exponent of ten above that is not. -/
  bound : Int
  /-- What follows the digits of a whole number. -/
  wholeMark : String
  /-- What stands in front of an exponent that is not negative. -/
  plus : String

/-- Metadata numbers are positional from `1e-5` up to `1e16`. -/
def floatLayout : FloatLayout :=
  ⟨-5, 16, ".0", "+"⟩

namespace FloatLayout

/-- Digits with the point behind the first `point` of them. -/
def positional (l : FloatLayout) (digits : List Char) (point : Int) : String :=
  if point ≤ 0 then
    "0." ++ String.ofList (List.replicate (-point).toNat '0' ++ digits)
  else if (digits.length : Int) ≤ point then
    String.ofList (digits ++ List.replicate (point.toNat - digits.length) '0') ++ l.wholeMark
  else
    String.ofList (digits.take point.toNat) ++ "." ++ String.ofList (digits.drop point.toNat)

/-- One digit, the point, the other digits and the exponent of ten. -/
def exponential (l : FloatLayout) (digits : List Char) (exponent : Int) : String :=
  let fraction :=
    match digits.drop 1 with
    | [] => ""
    | ds => "." ++ String.ofList ds
  String.ofList (digits.take 1) ++ fraction ++ "e" ++
    (if 0 ≤ exponent then l.plus else "") ++ toString exponent

/-- Writes a positive decimal. -/
def magnitude (l : FloatLayout) (s : Decimal.Scientific) : String :=
  let digits := (toString s.digits).toList
  let point : Int := s.exponent + digits.length
  if l.least ≤ point - 1 ∧ point - 1 < l.bound then l.positional digits point
  else l.exponential digits (point - 1)

/-- Writes a finite floating-point number. -/
def render (l : FloatLayout) (x : Float) : String :=
  let bits := x.toBits.toNat
  let sign := if bits / Word.count 63 = 1 then "-" else ""
  sign ++ l.magnitude (Decimal.shortest (Decimal.Binary.ofBits bits))

end FloatLayout

/-- The text of a number. -/
def Number.render : Number → String
  | .int n => toString n
  | .float x => floatLayout.render x

/-! ## §2. Strings -/

/-- A hexadecimal digit, in lower case. -/
def hexDigit (n : Nat) : Char :=
  if n < 10 then Char.ofNat ('0'.toNat + n) else Char.ofNat ('a'.toNat + (n - 10))

/-- The characters that stand for a character inside quotes. -/
def escapeChar (c : Char) : List Char :=
  match c with
  | '"' => ['\\', '"']
  | '\\' => ['\\', '\\']
  | '\x08' => ['\\', 'b']
  | '\x0c' => ['\\', 'f']
  | '\n' => ['\\', 'n']
  | '\r' => ['\\', 'r']
  | '\t' => ['\\', 't']
  | c =>
    if c.toNat < 0x20 then ['\\', 'u', '0', '0', hexDigit (c.toNat / 16), hexDigit (c.toNat % 16)]
    else [c]

/-- A string in quotes. -/
def quote (s : String) : String :=
  "\"" ++ String.ofList (s.toList.flatMap escapeChar) ++ "\""

/-! ## §3. Compact form -/

mutual

/-- The compact text of a value. -/
def Value.render : Value → String
  | .null => "null"
  | .bool b => if b then "true" else "false"
  | .number n => n.render
  | .string s => quote s
  | .array items => "[" ++ Value.renderItems items ++ "]"
  | .object fields => "\x7b" ++ Value.renderFields fields ++ "\x7d"

/-- The compact texts of the items of a list, with commas between them. -/
def Value.renderItems : List Value → String
  | [] => ""
  | [v] => v.render
  | v :: vs => v.render ++ "," ++ Value.renderItems vs

/-- The compact texts of fields, with commas between them. -/
def Value.renderFields : List (String × Value) → String
  | [] => ""
  | [(k, v)] => quote k ++ ":" ++ v.render
  | (k, v) :: fs => quote k ++ ":" ++ v.render ++ "," ++ Value.renderFields fs

end

/-! ## §4. Indented form -/

/-- A line break, and the blanks in front of a line at a level of nesting. -/
def lineBreak (level : Nat) : String :=
  "\n" ++ String.ofList (List.replicate (2 * level) ' ')

mutual

/-- The indented text of a value at a level of nesting. -/
def Value.renderIndented (level : Nat) : Value → String
  | .array [] => "[]"
  | .array (v :: vs) =>
    "[" ++ Value.renderItemLines (level + 1) (v :: vs) ++ lineBreak level ++ "]"
  | .object [] => "\x7b\x7d"
  | .object (f :: fs) =>
    "\x7b" ++ Value.renderFieldLines (level + 1) (f :: fs) ++ lineBreak level ++ "\x7d"
  | v => v.render

/-- The items of a list, each on a line of its own. -/
def Value.renderItemLines (level : Nat) : List Value → String
  | [] => ""
  | [v] => lineBreak level ++ v.renderIndented level
  | v :: vs => lineBreak level ++ v.renderIndented level ++ "," ++ Value.renderItemLines level vs

/-- Fields, each on a line of its own. -/
def Value.renderFieldLines (level : Nat) : List (String × Value) → String
  | [] => ""
  | [(k, v)] => lineBreak level ++ quote k ++ ": " ++ v.renderIndented level
  | (k, v) :: fs =>
    lineBreak level ++ quote k ++ ": " ++ v.renderIndented level ++ "," ++
      Value.renderFieldLines level fs

end

/-- The text that a value shows: strings stand for themselves, null for nothing, and
    everything else for its compact text. -/
def Value.display : Value → String
  | .string s => s
  | .null => ""
  | v => v.render

end TagExpander.Json
