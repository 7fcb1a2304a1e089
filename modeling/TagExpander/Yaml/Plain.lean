/-
  TagExpander.Yaml.Plain — what a plain scalar stands for.

      (nothing)  ~  null                 null
      true  false                        truth values
      12  +12  -0x1F  0o17  0b101        whole numbers
      1.5  .5  -1e3  .inf  .nan          floating-point numbers

  Words may also be written `Null` or `NULL`.  Everything else is a text, also decimal
  digits behind a leading zero.
-/

import TagExpander.Decimal
import TagExpander.Json.Value
import TagExpander.Text.Basic

namespace TagExpander.Yaml.Plain

open Json (Value)

/-! ## §1. Words -/

/-- Is this a word for null? -/
def isNull (s : String) : Bool :=
  s == "null" || s == "Null" || s == "NULL" || s == "~"

/-- The truth value of a word. -/
def bool? (s : String) : Option Bool :=
  if s == "true" || s == "True" || s == "TRUE" then some true
  else if s == "false" || s == "False" || s == "FALSE" then some false
  else none

/-! ## §2. Whole numbers -/

/-- The text behind its sign, if it has one; is it negative? -/
def splitSign : List Char → Bool × List Char
  | '-' :: cs => (true, cs)
  | '+' :: cs => (false, cs)
  | cs => (false, cs)

/-- The number that digits of a base spell, if they do. -/
def natural? (base : Nat) (cs : List Char) : Option Nat :=
  if !cs.isEmpty && cs.all (Text.isDigitOf base) then some (Text.number base cs) else none

/-- Are these decimal digits behind a leading zero? -/
def hasLeadingZero : List Char → Bool
  | '0' :: c :: cs => (c :: cs).all Char.isDigit
  | _ => false

/-- The number that decimal digits spell. -/
def readDecimal? (cs : List Char) : Option Nat :=
  if hasLeadingZero cs then none else natural? 10 cs

/-- The number that digits spell, of a base that may be said in front. -/
def readNatural? : List Char → Option Nat
  | '0' :: 'x' :: cs => natural? 16 cs
  | '0' :: 'o' :: cs => natural? 8 cs
  | '0' :: 'b' :: cs => natural? 2 cs
  | cs => readDecimal? cs

/-- The whole number that a text spells. -/
def int? (cs : List Char) : Option Int :=
  let (negative, digits) := splitSign cs
  (readNatural? digits).map fun n => if negative then -(n : Int) else n

/-! ## §3. Floating-point numbers -/

/-- The exponent behind its mark; nothing at all is the exponent zero. -/
def exponent? : List Char → Option Int
  | [] => some 0
  | e :: cs =>
    if e == 'e' || e == 'E' then
      let (negative, digits) := splitSign cs
      (natural? 10 digits).map fun n => if negative then -(n : Int) else n
    else none

/-- The floating-point number that decimal digits spell, with a point or an exponent, or
    neither. -/
def magnitude? (cs : List Char) : Option Float := do
  let whole := cs.takeWhile Char.isDigit
  let (fraction, rest) :=
    match cs.dropWhile Char.isDigit with
    | '.' :: behind => (behind.takeWhile Char.isDigit, behind.dropWhile Char.isDigit)
    | behind => ([], behind)
  let digits ← natural? 10 (whole ++ fraction)
  let e ← exponent? rest
  some (Decimal.nearest digits (e - fraction.length))

/-- Is this a word for infinity? -/
def isInfinity (cs : List Char) : Bool :=
  [".inf", ".Inf", ".INF"].any fun word => word.toList == cs

/-- Is this a word for an undefined number? -/
def isUndefined (cs : List Char) : Bool :=
  [".nan", ".NaN", ".NAN"].any fun word => word.toList == cs

/-- The floating-point number that a text spells: a finite one, or the value null for
    those that are not. -/
def float? (cs : List Char) : Option Value :=
  let (negative, body) := splitSign cs
  if isInfinity body || isUndefined cs then some .null
  else
    match magnitude? body with
    | some x =>
      if x.isInf then none else some (.number (.float (if negative then -x else x)))
    | none => none

/-! ## §4. Values -/

/-- The value of a whole number: it must fit 64 bits, signed or unsigned. -/
def intValue? (n : Int) : Option Value :=
  if Word.fits 64 n then some (.number (.int n)) else none

/-- The whole number that a text spells, if it fits 128 bits.  Larger ones are read as
    floating-point numbers. -/
def wideInt? (cs : List Char) : Option Int :=
  (int? cs).filter (Word.fits 128)

/-- The value of a plain scalar without a tag; `none` if it is a whole number that is
    out of range. -/
def value? (s : String) : Option Value :=
  let cs := s.toList
  if s.isEmpty || isNull s then some .null
  else
    match bool? s, wideInt? cs with
    | some b, _ => some (.bool b)
    | none, some n => intValue? n
    | none, none =>
      if hasLeadingZero (splitSign cs).2 then some (.string s)
      else some ((float? cs).getD (.string s))

end TagExpander.Yaml.Plain
