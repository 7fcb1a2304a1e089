/-
  TagExpander.Markup.Marker — the markers that delimit tags.

  A marker starts with `<?#` and ends with `?>`:

      <?# Name arguments ?>     opening
      <?# Name arguments /?>    self-closing
      <?#/ Name ?>              closing

  The name runs up to a blank, `?`, `/` or a quotation mark.  The end is the first
  `?>` outside quotes; a quotation mark opens a quoted part only behind an ASCII
  blank or `=`, so that apostrophes inside words stand for themselves.  Another
  `<?#` outside quotes means that the marker was never ended.

  Main results:
    * `terminator_lt` — the end found lies inside the text.
    * `Marker.three_lt_length` — a marker takes up more than the three characters
      `<?#`, so a walk from marker to marker ends.
-/

import TagExpander.Argument.Basic
import TagExpander.Text.Basic

namespace TagExpander.Markup

/-! ## §1. Faults -/

/-- What can be wrong with the markers of a text. -/
inductive Fault where
  /-- No name stands where a marker needs one. -/
  | missingName
  /-- The marker is not ended by `?>`. -/
  | unterminated
  /-- A closing marker has arguments. -/
  | closerWithArguments
  /-- A closing marker closes no open tag. -/
  | strayCloser
  /-- An open tag has no closing marker. -/
  | missingCloser
deriving DecidableEq, Inhabited

/-- The wording of a fault in a tag of the given name. -/
def Fault.message (name : String) : Fault → String
  | .missingName => "missing shortcode name"
  | .unterminated => "unterminated tag (missing `?>`)"
  | .closerWithArguments => "closing tag cannot have arguments"
  | .strayCloser => "closing tag without a matching opening tag"
  | .missingCloser => "missing closing tag `<?#/ " ++ name ++ " ?>`"

/-! ## §2. Where a marker ends -/

/-- Is the text at the start of a marker? -/
def startsMarker : List Char → Bool
  | '<' :: '?' :: '#' :: _ => true
  | _ => false

/-- Is the text at the end of a marker? -/
def endsMarker : List Char → Bool
  | '?' :: '>' :: _ => true
  | _ => false

/-- How the characters of a marker are read: outside quotes, behind the character
    `previous`; inside a value quoted by `mark`; or there, behind a backslash. -/
inductive Quoting where
  | outside (previous : Char)
  | inside (mark : Char)
  | escaped (mark : Char)
deriving DecidableEq, Inhabited

/-- Can a quotation mark open a quoted value behind this character? -/
def opensValue (previous : Char) : Bool :=
  Text.isAsciiBlank previous || previous == '='

/-- How to read on behind the character `c`. -/
def Quoting.next (c : Char) : Quoting → Quoting
  | .escaped mark => .inside mark
  | .inside mark =>
    if c == '\\' then .escaped mark else if c == mark then .outside c else .inside mark
  | .outside previous =>
    if Argument.isQuote c && opensValue previous then .inside c else .outside c

/-- Is the next character read outside quotes? -/
def Quoting.isOutside : Quoting → Bool
  | .outside _ => true
  | _ => false

/-- Number of characters in front of the `?>` that ends a marker, from a place in it
    read as `q`; `none` if the text or another marker comes first. -/
def terminatorFrom (q : Quoting) (n : Nat) : List Char → Option Nat
  | [] => none
  | c :: cs =>
    if q.isOutside && endsMarker (c :: cs) then some n
    else if q.isOutside && startsMarker (c :: cs) then none
    else terminatorFrom (q.next c) (n + 1) cs

/-- Number of characters between the name of a marker and the `?>` that ends it. -/
def terminator (cs : List Char) : Option Nat :=
  terminatorFrom (.outside ' ') 0 cs

/-- The end that is found lies inside the text, with room for `?>`. -/
theorem terminatorFrom_lt {q : Quoting} {n k : Nat} {cs : List Char}
    (h : terminatorFrom q n cs = some k) : n ≤ k ∧ k + 2 ≤ n + cs.length := by
  induction cs generalizing q n with
  | nil => simp [terminatorFrom] at h
  | cons c cs ih =>
    rw [terminatorFrom] at h
    split at h
    next hend =>
      simp only [Option.some.injEq] at h
      subst h
      simp only [Bool.and_eq_true] at hend
      have : 2 ≤ (c :: cs).length := by
        have hm := hend.2
        unfold endsMarker at hm
        split at hm <;> simp_all
      omega
    · split at h
      · simp at h
      · have := ih h
        simp only [List.length_cons]
        omega

/-- The end that is found lies inside the text, with room for `?>`. -/
theorem terminator_lt {k : Nat} {cs : List Char} (h : terminator cs = some k) :
    k + 2 ≤ cs.length := by
  have := (terminatorFrom_lt h).2
  omega

/-! ## §3. Reading a marker -/

/-- The part that a marker plays for its tag. -/
inductive Role where
  | opening
  | selfClosing
  | closing
deriving DecidableEq, Inhabited

/-- A marker, read. -/
structure Marker where
  /-- The part that the marker plays. -/
  role : Role
  /-- The name of its tag, as written. -/
  name : String
  /-- The text of its arguments; empty for a closing marker. -/
  arguments : String
  /-- Number of characters that it takes up, `<?#` and `?>` included. -/
  length : Nat
deriving DecidableEq, Inhabited

/-- The characters of a tag name. -/
def isNameChar (c : Char) : Bool :=
  !Text.isBlank c && c != '?' && c != '/' && !Argument.isQuote c

namespace Marker

/-- Splits the body of an opening marker, the text between its name and `?>`: a
    slash at its end makes the marker self-closing. -/
def splitBody (body : List Char) : Role × List Char :=
  match body.reverse.dropWhile Text.isBlank with
  | '/' :: front => (.selfClosing, front.reverse)
  | front => (.opening, front.reverse)

/-- Reads the rest of a marker whose start takes up `before` characters.  The text
    begins at the blanks in front of the name. -/
def readNamed (closing : Bool) (before : Nat) (cs : List Char) :
    Except (String × Fault) Marker :=
  let blanks := cs.takeWhile Text.isBlank
  let named := Text.trimLeft cs
  let name := String.ofList (named.takeWhile isNameChar)
  let rest := named.dropWhile isNameChar
  if name.isEmpty then .error ("", .missingName)
  else
    match terminator rest with
    | none => .error (name, .unterminated)
    | some n =>
      let body := rest.take n
      let length := before + blanks.length + (named.takeWhile isNameChar).length + n + 2
      if closing then
        if Text.allBlank body then .ok ⟨.closing, name, "", length⟩
        else .error (name, .closerWithArguments)
      else
        let (role, arguments) := splitBody body
        .ok ⟨role, name, String.ofList arguments, length⟩

/-- Reads the marker at the start of a text that begins with `<?#`.  On failure,
    gives the name (empty if none can be read) and the fault. -/
def read (cs : List Char) : Except (String × Fault) Marker :=
  match cs.drop 3 with
  | '/' :: rest => readNamed true 4 rest
  | rest => readNamed false 3 rest

/-- A marker takes up more characters than stand in front of its name. -/
theorem lt_length_readNamed {closing : Bool} {before : Nat} {cs : List Char} {m : Marker}
    (h : readNamed closing before cs = .ok m) : before < m.length := by
  unfold readNamed at h
  simp only at h
  split at h
  · cases h
  · split at h
    · cases h
    · split at h
      · split at h
        · cases h; simp only; omega
        · cases h
      · cases h; simp only; omega

/-- A marker takes up at least four characters. -/
theorem three_lt_length {cs : List Char} {m : Marker} (h : read cs = .ok m) : 3 < m.length := by
  unfold read at h
  split at h
  · have := lt_length_readNamed h; omega
  · exact lt_length_readNamed h

end Marker

end TagExpander.Markup
