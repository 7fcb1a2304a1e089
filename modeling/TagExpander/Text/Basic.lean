/-
  TagExpander.Text.Basic — characters, names and lengths of texts.

  Two notions of blank are in use.  Names and arguments are separated by any
  character of the Unicode property White_Space (`isBlank`); a quotation mark
  opens a quoted value only after one of the five ASCII blanks (`isAsciiBlank`).

  Tag names and argument keys are compared after lowering the letters A to Z;
  every other character, accented letters included, stands for itself.

  Positions in a text are counted in the bytes of its UTF-8 form, lines by the
  line feeds in front of a position.

  Main results:
    * `trimLeft_append` — trimming only removes blanks, and only in front.
    * `same_iff` — two texts are the same exactly when they fold to one text.
    * `bytes_append`, `newlines_append` — bytes and lines are additive.
-/

namespace TagExpander.Text

/-! ## §1. Blank characters -/

/-- The characters of the Unicode property White_Space. -/
def isBlank (c : Char) : Bool :=
  let n := c.toNat
  (0x9 ≤ n && n ≤ 0xD) || n == 0x20 || n == 0x85 || n == 0xA0 || n == 0x1680 ||
    (0x2000 ≤ n && n ≤ 0x200A) || n == 0x2028 || n == 0x2029 || n == 0x202F ||
    n == 0x205F || n == 0x3000

/-- Space, tab, line feed, form feed and carriage return. -/
def isAsciiBlank (c : Char) : Bool :=
  c == ' ' || c == '\t' || c == '\n' || c == '\x0c' || c == '\r'

/-- The ASCII blanks are blank. -/
theorem isBlank_of_isAsciiBlank {c : Char} (h : isAsciiBlank c = true) : isBlank c = true := by
  simp only [isAsciiBlank, Bool.or_eq_true, beq_iff_eq] at h
  rcases h with (((rfl | rfl) | rfl) | rfl) | rfl <;> rfl

/-! ## §2. Trimming -/

/-- The text without its leading blanks. -/
def trimLeft (cs : List Char) : List Char :=
  cs.dropWhile isBlank

/-- The text without its trailing blanks. -/
def trimRight (cs : List Char) : List Char :=
  (cs.reverse.dropWhile isBlank).reverse

/-- The text without the blanks at its two ends. -/
def trim (cs : List Char) : List Char :=
  trimRight (trimLeft cs)

/-- Trimming on the left cuts the text into its leading blanks and what is kept. -/
theorem trimLeft_append (cs : List Char) : cs.takeWhile isBlank ++ trimLeft cs = cs :=
  List.takeWhile_append_dropWhile

/-- Trimming on the left never lengthens a text. -/
theorem length_trimLeft_le (cs : List Char) : (trimLeft cs).length ≤ cs.length :=
  (List.dropWhile_sublist isBlank).length_le

/-- Is the text made of blanks only? -/
def allBlank (cs : List Char) : Bool :=
  cs.all isBlank

/-! ## §3. Digits -/

/-- The value of a digit of a base, which is at most 16; the letters from `a` on, in
    either case, follow the figures. -/
def digit? (base : Nat) (c : Char) : Option Nat :=
  let value : Option Nat :=
    if c.isDigit then some (c.toNat - '0'.toNat)
    else if 'a' ≤ c ∧ c ≤ 'f' then some (c.toNat - 'a'.toNat + 10)
    else if 'A' ≤ c ∧ c ≤ 'F' then some (c.toNat - 'A'.toNat + 10)
    else none
  value.filter (· < base)

/-- Is the character a digit of a base? -/
def isDigitOf (base : Nat) (c : Char) : Bool :=
  (digit? base c).isSome

/-- The number that digits of a base spell. -/
def number (base : Nat) (digits : List Char) : Nat :=
  digits.foldl (fun n c => n * base + (digit? base c).getD 0) 0

/-! ## §4. Names up to ASCII case -/

/-- Lower-case form of the letters A to Z; all other characters are unchanged. -/
def fold (s : String) : String :=
  String.ofList (s.toList.map Char.toLower)

/-- Are two texts equal up to ASCII case? -/
def same (a b : String) : Bool :=
  fold a == fold b

/-- Two texts are the same exactly when they fold to one text. -/
theorem same_iff {a b : String} : same a b = true ↔ fold a = fold b := by
  simp [same]

/-- Every text is the same as itself. -/
theorem same_refl (a : String) : same a a = true :=
  same_iff.2 rfl

/-! ## §5. Bytes and lines -/

/-- Number of bytes of the UTF-8 form of a text. -/
def bytes (cs : List Char) : Nat :=
  cs.foldl (fun n c => n + c.utf8Size) 0

/-- Number of line feeds in a text. -/
def newlines (cs : List Char) : Nat :=
  cs.count '\n'

/-- The byte count may start from any number. -/
theorem foldl_bytes (cs : List Char) (n : Nat) :
    cs.foldl (fun n c => n + c.utf8Size) n = n + bytes cs := by
  induction cs generalizing n with
  | nil => rfl
  | cons c cs ih =>
    simp only [bytes, List.foldl_cons]
    rw [ih (n + c.utf8Size), ih (0 + c.utf8Size)]
    omega

@[simp] theorem bytes_nil : bytes [] = 0 := rfl

@[simp] theorem bytes_cons (c : Char) (cs : List Char) :
    bytes (c :: cs) = c.utf8Size + bytes cs := by
  rw [bytes, List.foldl_cons, foldl_bytes]
  omega

/-- The bytes of a concatenation are those of its parts. -/
@[simp] theorem bytes_append (as bs : List Char) : bytes (as ++ bs) = bytes as + bytes bs := by
  rw [bytes, List.foldl_append, foldl_bytes]
  rfl

/-- The line feeds of a concatenation are those of its parts. -/
@[simp] theorem newlines_append (as bs : List Char) :
    newlines (as ++ bs) = newlines as + newlines bs :=
  List.count_append

end TagExpander.Text
