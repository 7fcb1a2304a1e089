/-
  TagExpander.CommandLine.Terminal — text without what only controls a terminal.

      ESC [ 1 ; 3 1 m          a control sequence: parameters and a final character
      ESC ( B                  an escape: middle characters and a final one
      ESC ] … BEL              a command
      ESC P … , ESC X … ,      strings for a device
      ESC ^ … , ESC _ …

  Where a text does not go to a terminal, it is written without these, and without
  other control characters than those that lay out lines.  A character that lays out
  lines is written even inside a control sequence, and then all that follows it up to
  the next control character; only behind that the sequence goes on.

  Main results:
    * `shown_of_plain` — a text without control characters is written as it is.
-/

namespace TagExpander.CommandLine

/-! ## §1. Characters -/

namespace Terminal

/-- A character that lays out lines. -/
def isLayout (c : Char) : Bool :=
  c == '\t' || c == '\n' || c == '\x0c' || c == '\r'

/-- A character that starts an escape, or ends whatever is open. -/
def isReset (c : Char) : Bool :=
  c == '\x1b' || c == '\x18' || c == '\x1a'

/-- A character with a form of its own, or a blank. -/
def isGraphic (c : Char) : Bool :=
  ' ' ≤ c && c != '\x7f'

/-- A character in the middle of a sequence. -/
def isMiddle (c : Char) : Bool :=
  ' ' ≤ c && c ≤ '/'

/-- A digit or a separator of the parameters of a sequence, or a private mark. -/
def isParameter (c : Char) : Bool :=
  '0' ≤ c && c ≤ '?'

/-- A private mark, which stands only in front of parameters. -/
def isPrivate (c : Char) : Bool :=
  '<' ≤ c && c ≤ '?'

/-- The last character of a sequence. -/
def isFinal (c : Char) : Bool :=
  '@' ≤ c && c ≤ '~'

/-- The octet that ends a string for a device. -/
def stringEnd : UInt8 := 0x9c

/-- Does a character end a string for a device?  One of its octets does. -/
def endsString (c : Char) : Bool :=
  (String.utf8EncodeChar c).contains stringEnd

/-! ## §2. Modes -/

/-- What a terminal expects next. -/
inductive Mode where
  /-- Text. -/
  | text
  /-- What stands behind ESC. -/
  | escape
  /-- The last character of an escape. -/
  | escapeMiddle
  /-- What stands behind `ESC [`. -/
  | sequence
  /-- Further parameters of a control sequence. -/
  | sequenceParameters
  /-- The last character of a control sequence. -/
  | sequenceMiddle
  /-- The last character of a malformed control sequence. -/
  | sequenceIgnored
  /-- What stands behind `ESC P`. -/
  | device
  /-- Further parameters of a device. -/
  | deviceParameters
  /-- The last character in front of the string for a device. -/
  | deviceMiddle
  /-- The end of a string, for a device or for nobody. -/
  | string
  /-- The end of a command. -/
  | command
deriving DecidableEq, Inhabited

namespace Mode

/-- The mode behind a character. -/
def step (m : Mode) (c : Char) : Mode :=
  if isReset c then if c == '\x1b' then .escape else .text
  else
    match m with
    | .text => .text
    | .escape =>
      if c == '[' then .sequence
      else if c == ']' then .command
      else if c == 'P' then .device
      else if c == 'X' || c == '^' || c == '_' then .string
      else if isMiddle c then .escapeMiddle
      else if isParameter c || isFinal c then .text
      else .escape
    | .escapeMiddle => if isParameter c || isFinal c then .text else .escapeMiddle
    | .sequence =>
      if isMiddle c then .sequenceMiddle
      else if isParameter c then .sequenceParameters
      else if isFinal c then .text
      else .sequence
    | .sequenceParameters =>
      if isMiddle c then .sequenceMiddle
      else if isPrivate c then .sequenceIgnored
      else if isFinal c then .text
      else .sequenceParameters
    | .sequenceMiddle =>
      if isParameter c then .sequenceIgnored
      else if isFinal c then .text
      else .sequenceMiddle
    | .sequenceIgnored => if isFinal c then .text else .sequenceIgnored
    | .device =>
      if isMiddle c then .deviceMiddle
      else if isParameter c then .deviceParameters
      else if isFinal c then .string
      else .device
    | .deviceParameters =>
      if isMiddle c then .deviceMiddle
      else if isPrivate c || isFinal c then .string
      else .deviceParameters
    | .deviceMiddle => if isParameter c || isFinal c then .string else .deviceMiddle
    | .string => if endsString c then .text else .string
    | .command => if c == '\x07' then .text else .command

/-- The mode behind a character of a text that is being written. -/
def keep (m : Mode) (c : Char) : Mode :=
  if isReset c then m.step c else if '\x7f' < c then .text else m

/-- Do control characters act in this mode?  In strings and commands they do not. -/
def acts : Mode → Bool
  | .device | .deviceParameters | .deviceMiddle | .string | .command => false
  | _ => true

/-- Is a character written in this mode? -/
def shows (m : Mode) (c : Char) : Bool :=
  (m == .text && isGraphic c) || (m.acts && isLayout c)

end Mode

/-! ## §3. Texts -/

/-- What is written of a text from a mode on; `writing` says whether the character in
    front was written. -/
def shownFrom (m : Mode) (writing : Bool) : List Char → List Char
  | [] => []
  | c :: cs =>
    let next := if writing then m.keep c else m.step c
    if (if writing then Mode.text else m).shows c then c :: shownFrom next true cs
    else shownFrom next false cs

/-- What is written of a text. -/
def shown (text : String) : String :=
  String.ofList (shownFrom .text false text.toList)

/-- A text of graphic characters is written as it is, whatever was written before. -/
theorem shownFrom_of_graphic {cs : List Char} (h : cs.all isGraphic = true) (writing : Bool) :
    shownFrom .text writing cs = cs := by
  induction cs generalizing writing with
  | nil => rfl
  | cons c cs ih =>
    simp only [List.all_cons, Bool.and_eq_true] at h
    have hr : isReset c = false := by
      have hc := h.1
      simp only [isGraphic, Bool.and_eq_true, decide_eq_true_eq] at hc
      simp only [isReset, Bool.or_eq_false_iff, beq_eq_false_iff_ne, ne_eq]
      refine ⟨⟨?_, ?_⟩, ?_⟩ <;> rintro rfl <;> exact absurd hc.1 (by decide)
    have hstep : Mode.text.step c = .text := by simp [Mode.step, hr]
    have hkeep : Mode.text.keep c = .text := by simp [Mode.keep, hr]
    cases writing <;> simp [shownFrom, Mode.shows, hstep, hkeep, h.1, ih h.2]

/-- A text without control characters is written as it is. -/
theorem shown_of_plain {text : String} (h : text.toList.all isGraphic = true) :
    shown text = text := by
  rw [shown, shownFrom_of_graphic h, String.ofList_toList]

end Terminal

end TagExpander.CommandLine
