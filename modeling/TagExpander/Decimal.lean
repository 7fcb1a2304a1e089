/-
  TagExpander.Decimal — binary numbers, and the decimal ones that stand for them.

  A finite number of the 64-bit floating-point format is, up to its sign, a natural
  significand times a power of two.

  A decimal reads back as a binary number if it lies in the interval of the reals
  that round to it: half a unit of the last place to either side (a quarter below
  the first number of a power of two), the ends included if the significand is
  even.  Of the decimals in the interval, those with the fewest digits count, and
  of them the nearest; of two equally near, the one with the even last digit.  All
  comparisons with the interval are between naturals.

  The other way, a decimal stands for the floating-point number nearest to it.
-/

/-! ## §1. Words -/

namespace TagExpander.Word

/-- Number of words of a number of bits. -/
def count (bits : Nat) : Nat :=
  Nat.pow 2 bits

/-- Does a number fit an unsigned word? -/
def fitsUnsigned (bits : Nat) (n : Int) : Bool :=
  0 ≤ n && n < count bits

/-- Does a number fit a signed word? -/
def fitsSigned (bits : Nat) (n : Int) : Bool :=
  -(count (bits - 1) : Int) ≤ n && n < count (bits - 1)

/-- Does a number fit a word, signed or unsigned? -/
def fits (bits : Nat) (n : Int) : Bool :=
  fitsSigned bits n || fitsUnsigned bits n

end TagExpander.Word

namespace TagExpander.Decimal

/-! ## §2. Binary floating-point numbers -/

/-- The magnitude `significand * 2 ^ exponent` of a finite number. -/
structure Binary where
  /-- The significand. -/
  significand : Nat
  /-- The exponent of two. -/
  exponent : Int
  /-- Is the neighbour below half as far away as the one above? -/
  lowerHalf : Bool
deriving DecidableEq, Inhabited

namespace Binary

/-- Decodes the bits of a number, its sign left out.  Exponent field 0 holds the
    numbers without a leading one; above it, a significand of only the leading one
    is the first of its power of two. -/
def ofBits (bits : Nat) : Binary :=
  let fraction : Nat := bits % Word.count 52
  let field : Nat := bits / Word.count 52 % Word.count 11
  if field = 0 then ⟨fraction, -1074, false⟩
  else ⟨Word.count 52 + fraction, (field : Int) - 1075, fraction == 0 && field != 1⟩

/-- The magnitude as a quotient of naturals, in quarters of a unit of the last place:
    the value is `4 * significand * scale` over the divisor, with the scale returned
    first. -/
def scale (b : Binary) : Nat × Nat :=
  if 0 ≤ b.exponent then (Nat.pow 2 b.exponent.toNat, 4)
  else (1, 4 * Nat.pow 2 (-b.exponent).toNat)

end Binary

/-! ## §3. Decimal numbers -/

/-- The decimal number `digits * 10 ^ exponent`. -/
structure Scientific where
  /-- The digits, as one natural number. -/
  digits : Nat
  /-- The exponent of ten. -/
  exponent : Int
deriving DecidableEq, Inhabited

/-- Number of decimal digits of a natural number. -/
def digitCount (n : Nat) : Nat :=
  (Nat.toDigits 10 n).length

/-- The exponent `k` with `10 ^ k ≤ num / den < 10 ^ (k + 1)`, for positive numbers. -/
def magnitude (num den : Nat) : Int :=
  if den ≤ num then (digitCount (num / den) : Int) - 1
  else
    let j := digitCount (den / num) - 1
    if den = num * Nat.pow 10 j then -(j : Int) else -(j : Int) - 1

/-! ## §4. The shortest decimal -/

/-- The interval of reals that round to a number, and the number itself, all over
    one divisor. -/
structure Interval where
  low : Nat
  value : Nat
  high : Nat
  den : Nat
  /-- Do the ends belong to the interval? -/
  closed : Bool
deriving DecidableEq, Inhabited

/-- The interval of a positive binary number. -/
def Interval.ofBinary (b : Binary) : Interval :=
  let (scale, den) := b.scale
  let below := if b.lowerHalf then 1 else 2
  { low := (4 * b.significand - below) * scale
    value := 4 * b.significand * scale
    high := (4 * b.significand + 2) * scale
    den
    closed := b.significand % 2 == 0 }

namespace Interval

/-- The same interval in units of `10 ^ exponent`. -/
def inUnits (i : Interval) (exponent : Int) : Interval :=
  if 0 ≤ exponent then { i with den := i.den * Nat.pow 10 exponent.toNat }
  else
    let p := Nat.pow 10 (-exponent).toNat
    { i with low := i.low * p, value := i.value * p, high := i.high * p }

/-- Does a whole number of units lie in the interval? -/
def contains (i : Interval) (units : Nat) : Bool :=
  let n := units * i.den
  if i.closed then i.low ≤ n && n ≤ i.high else i.low < n && n < i.high

/-- Is the lower of two neighbouring unit counts the better approximation? -/
def prefersLower (i : Interval) (units : Nat) : Bool :=
  let below := i.value - units * i.den
  let above := (units + 1) * i.den - i.value
  below < above || (below == above && units % 2 == 0)

/-- The best whole number of units in the interval, if there is one: one of the two
    neighbours of the value. -/
def best? (i : Interval) : Option Nat :=
  let units := i.value / i.den
  match i.contains units, i.contains (units + 1) with
  | true, true => some (if i.prefersLower units then units else units + 1)
  | true, false => some units
  | false, true => some (units + 1)
  | false, false => none

end Interval

/-- Tries `digits`, then more digits, up to `tries` grids. -/
def shortestFrom (i : Interval) (k : Int) (digits : Nat) : (tries : Nat) → Scientific
  | 0 => ⟨i.value / i.den, 0⟩
  | tries + 1 =>
    let exponent := k - digits + 1
    match (i.inUnits exponent).best? with
    | some units => ⟨units, exponent⟩
    | none => shortestFrom i k (digits + 1) tries

/-- Drops zeros at the end of the digits. -/
def dropZeros (s : Scientific) : Nat → Scientific
  | 0 => s
  | n + 1 =>
    if s.digits ≠ 0 ∧ s.digits % 10 = 0 then dropZeros ⟨s.digits / 10, s.exponent + 1⟩ n else s

/-- The shortest decimal that reads back as a binary number; seventeen digits always
    suffice. -/
def shortest (b : Binary) : Scientific :=
  if b.significand = 0 then ⟨0, 0⟩
  else
    let i := Interval.ofBinary b
    let s := shortestFrom i (magnitude i.value i.den) 1 17
    dropZeros s 17

/-! ## §5. The nearest binary number -/

/-- Every number of 400 digits or more in front of the point is too large to be finite,
    and every one whose first 400 places behind the point are zeros is too small not to
    be zero. -/
def widest : Int := 400

/-- The floating-point number nearest to `digits * 10 ^ exponent`. -/
def nearest (digits : Nat) (exponent : Int) : Float :=
  let point := digitCount digits + exponent
  if digits = 0 || point < -widest then 0.0
  else if widest < point then 1.0 / 0.0
  else Float.ofScientific digits (exponent < 0) exponent.natAbs

end TagExpander.Decimal
