/-
  TagExpander.Json.Value — the values of metadata.

  Numbers are whole numbers of the signed or unsigned 64-bit range, or 64-bit
  floating-point numbers.  The fields of an object stand in the order in which
  their names were first written.
-/

import TagExpander.Decimal
import TagExpander.Fields

namespace TagExpander.Json

/-- A number. -/
inductive Number where
  /-- A whole number of the signed or unsigned 64-bit range. -/
  | int (n : Int)
  /-- A finite floating-point number. -/
  | float (x : Float)
deriving Inhabited

/-- A value. -/
inductive Value where
  | null
  | bool (b : Bool)
  | number (n : Number)
  | string (s : String)
  | array (items : List Value)
  | object (fields : List (String × Value))
deriving Inhabited

namespace Number

/-- The number, if it is whole and in the signed 64-bit range. -/
def int64? : Number → Option Int
  | .int n => if Word.fitsSigned 64 n then some n else none
  | .float _ => none

/-- Is the number other than zero? -/
def isNonZero : Number → Bool
  | .int n => n != 0
  | .float x => x != 0

/-- Are two numbers of the same kind equal? -/
def same : Number → Number → Bool
  | .int m, .int n => m == n
  | .float x, .float y => x == y
  | _, _ => false

end Number

mutual

/-- Are two values equal? -/
def Value.same : Value → Value → Bool
  | .null, .null => true
  | .bool a, .bool b => a == b
  | .number m, .number n => m.same n
  | .string s, .string t => s == t
  | .array xs, .array ys => Value.sameItems xs ys
  | .object fs, .object gs => Value.sameFields fs gs
  | _, _ => false

/-- Are two lists of values equal? -/
def Value.sameItems : List Value → List Value → Bool
  | [], [] => true
  | x :: xs, y :: ys => x.same y && Value.sameItems xs ys
  | _, _ => false

/-- Are two lists of fields equal? -/
def Value.sameFields : List (String × Value) → List (String × Value) → Bool
  | [], [] => true
  | (k, x) :: xs, (l, y) :: ys => k == l && x.same y && Value.sameFields xs ys
  | _, _ => false

end

/-- Does a value count as true?  Null, false, zero and everything empty do not. -/
def Value.isTruthy : Value → Bool
  | .null => false
  | .bool b => b
  | .number n => n.isNonZero
  | .string s => !s.isEmpty
  | .array items => !items.isEmpty
  | .object fields => !fields.isEmpty

end TagExpander.Json
