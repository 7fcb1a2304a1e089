/-
  TagExpander.Argument.Basic — the arguments of a tag.

  Between the name of a tag and its end stand arguments, separated by blanks:

      value   "value"   'value'   key=value   key="value"   key='value'

  Inside quotes a backslash protects the quotation mark and itself; in front of
  any other character it stands for itself.  A quoted value that is never closed
  runs to the end of the text.

  Main results:
    * `length_readQuoted_le`, `length_read_le` — what is left after an argument is
      no longer than what stood behind its first character, so `readAll` ends.
-/

import TagExpander.Text.Basic

namespace TagExpander

/-- One argument: a value, with a key if it was written `key=value`. -/
structure Argument where
  /-- The key in front of `=`, if there is one. -/
  key : Option String
  /-- The value, without its quotation marks. -/
  value : String
deriving DecidableEq, Inhabited

namespace Argument

/-! ## §1. Character classes -/

/-- The two quotation marks. -/
def isQuote (c : Char) : Bool :=
  c == '"' || c == '\''

/-- The characters of an unquoted value. -/
def isBare (c : Char) : Bool :=
  !Text.isBlank c

/-- The characters of a key. -/
def isKeyChar (c : Char) : Bool :=
  c != '=' && !Text.isBlank c && !isQuote c

/-! ## §2. Reading one value -/

/-- Reads a quoted value from behind its opening mark `q`; returns the value and
    the text behind the closing mark. -/
def readQuoted (q : Char) : List Char → List Char × List Char
  | [] => ([], [])
  | '\\' :: c :: cs =>
    let (value, rest) := readQuoted q cs
    if c == q || c == '\\' then (c :: value, rest) else ('\\' :: c :: value, rest)
  | c :: cs =>
    if c == q then ([], cs)
    else
      let (value, rest) := readQuoted q cs
      (c :: value, rest)

/-- Reads the value that follows `key=`. -/
def readValue : List Char → List Char × List Char
  | [] => ([], [])
  | c :: cs =>
    if isQuote c then readQuoted c cs
    else ((c :: cs).takeWhile isBare, (c :: cs).dropWhile isBare)

/-- What follows a quoted value is no longer than the text it was read from. -/
theorem length_readQuoted_le (q : Char) (cs : List Char) :
    (readQuoted q cs).2.length ≤ cs.length := by
  fun_induction readQuoted q cs with
  | case1 => simp
  | case2 c cs value rest h hc ih => simp only [h, List.length_cons] at ih ⊢; omega
  | case3 c cs value rest h hc ih => simp only [h, List.length_cons] at ih ⊢; omega
  | case4 c cs _ hc => simp
  | case5 c cs _ hc value rest h ih => simp only [h, List.length_cons] at ih ⊢; omega

/-- What follows a value is no longer than the text it was read from. -/
theorem length_readValue_le (cs : List Char) : (readValue cs).2.length ≤ cs.length := by
  unfold readValue
  split
  · simp
  · split
    · exact Nat.le_succ_of_le (length_readQuoted_le _ _)
    · exact (List.dropWhile_sublist isBare).length_le

/-! ## §3. Reading arguments -/

/-- Reads the argument that starts with the character `c`; returns it and the text
    behind it.  A text that starts with `=` has no key: it is a value. -/
def read (c : Char) (cs : List Char) : Argument × List Char :=
  if isQuote c then
    let (value, rest) := readQuoted c cs
    (⟨none, String.ofList value⟩, rest)
  else
    match isKeyChar c, cs.dropWhile isKeyChar with
    | true, '=' :: after =>
      let (value, rest) := readValue after
      (⟨some (String.ofList (c :: cs.takeWhile isKeyChar)), String.ofList value⟩, rest)
    | _, _ => (⟨none, String.ofList (c :: cs.takeWhile isBare)⟩, cs.dropWhile isBare)

/-- What follows an argument is no longer than what stood behind its first character. -/
theorem length_read_le (c : Char) (cs : List Char) : (read c cs).2.length ≤ cs.length := by
  unfold read
  split
  · exact length_readQuoted_le c cs
  · split
    next after _ h =>
      have h₁ : (cs.dropWhile isKeyChar).length ≤ cs.length :=
        (List.dropWhile_sublist isKeyChar).length_le
      have h₂ := length_readValue_le after
      simp only [h, List.length_cons] at h₁
      show (readValue after).2.length ≤ cs.length
      omega
    next => exact (List.dropWhile_sublist isBare).length_le

/-- All arguments of a text, in order. -/
def readAll (cs : List Char) : List Argument :=
  match _h : Text.trimLeft cs with
  | [] => []
  | c :: rest => (read c rest).1 :: readAll (read c rest).2
termination_by cs.length
decreasing_by
  have h₁ := length_read_le c rest
  have h₂ := Text.length_trimLeft_le cs
  simp only [_h, List.length_cons] at h₂
  omega

end Argument

/-- The arguments of one tag, in the order they were written. -/
structure Arguments where
  /-- The arguments from left to right. -/
  items : List Argument
deriving DecidableEq, Inhabited

namespace Arguments

/-- Reads the argument text of a tag. -/
def parse (text : String) : Arguments :=
  ⟨Argument.readAll text.toList⟩

/-- The value of the first argument with this key, up to ASCII case. -/
def named? (args : Arguments) (key : String) : Option String :=
  (args.items.find? fun a => a.key.any (Text.same key)).map Argument.value

/-- The value of the `i`-th argument without a key. -/
def positional? (args : Arguments) (i : Nat) : Option String :=
  (args.items.filter fun a => a.key.isNone)[i]?.map Argument.value

end Arguments

end TagExpander
