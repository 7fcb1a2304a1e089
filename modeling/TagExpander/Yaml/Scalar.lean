/-
  TagExpander.Yaml.Scalar — the texts of scalars.

      plain words      'single quotes'      "double quotes"      | literal      > folded

  Where a scalar goes on over several lines, its lines are folded: one line break
  becomes a space, and of several the first is dropped.  The lines of a literal block
  keep their breaks.
-/

import TagExpander.Text.Basic
import TagExpander.Yaml.Reader

namespace TagExpander.Yaml.Scalar

open Reader

/-! ## §1. Gaps between words -/

/-- What stands between two words of a scalar. -/
structure Gap where
  /-- The blanks in front of the first line break. -/
  spaces : List Char
  /-- The line breaks. -/
  breaks : List Char
deriving Inhabited

/-- Folded line breaks. -/
def fold : List Char → List Char
  | ['\n'] => [' ']
  | '\n' :: more => more
  | breaks => breaks

/-- The text that a gap stands for. -/
def Gap.text (g : Gap) : List Char :=
  if g.breaks.isEmpty then g.spaces else fold g.breaks

/-- Reads a gap.  Behind a line break, no tab may stand in a column below the given
    one. -/
def gap (column : Nat) : Reader Gap :=
  loop (fun (g : Gap) => do
    let c ← here
    match c.rest with
    | [] => pure (.inr ⟨g.spaces.reverse, g.breaks.reverse⟩)
    | ch :: _ =>
      if isBreak ch then
        let b ← lineBreak
        pure (.inl { g with breaks := b :: g.breaks })
      else if !isSpace ch then pure (.inr ⟨g.spaces.reverse, g.breaks.reverse⟩)
      else if g.breaks.isEmpty then do
        skip 1
        pure (.inl { g with spaces := ch :: g.spaces })
      else if ch == '\t' && c.column < column then failure
      else do
        skip 1
        pure (.inl g)) ⟨[], []⟩

/-- Does a mark of a document start here? -/
def isDocumentMark (c : Cursor) : Bool :=
  c.isDocumentMark '-' || c.isDocumentMark '.'

/-! ## §2. Quoted scalars -/

/-- Reads a number of hexadecimal digits; `n` is the value of those in front. -/
def hexNumber (n : Nat) : (digits : Nat) → Reader Nat
  | 0 => pure n
  | digits + 1 => do
    match Text.digit? 16 (← next) with
    | some d => hexNumber (n * 16 + d) digits
    | none => failure

/-- Reads the character that a number of hexadecimal digits stand for. -/
def hexChar (digits : Nat) : Reader Char := do
  let n ← hexNumber 0 digits
  if n.isValidChar then pure (Char.ofNat n) else failure

/-- Reads an escape from behind its backslash. -/
def escape : Reader Char := do
  match ← next with
  | '0' => pure '\x00'
  | 'a' => pure '\x07'
  | 'b' => pure '\x08'
  | 't' | '\t' => pure '\t'
  | 'n' => pure '\n'
  | 'v' => pure '\x0b'
  | 'f' => pure '\x0c'
  | 'r' => pure '\r'
  | 'e' => pure '\x1b'
  | ' ' => pure ' '
  | '"' => pure '"'
  | '/' => pure '/'
  | '\\' => pure '\\'
  | 'N' => pure '\u0085'
  | '_' => pure '\u00a0'
  | 'L' => pure '\u2028'
  | 'P' => pure '\u2029'
  | 'x' => hexChar 2
  | 'u' => hexChar 4
  | 'U' => hexChar 8
  | _ => failure

/-- Reads one piece of a scalar in single quotes; the quotes end it. -/
def singlePiece : Reader (Option (List Char)) := do
  if ← accept '\'' then
    if ← accept '\'' then pure (some ['\'']) else pure none
  else return some [← next]

/-- Reads one piece of a scalar in double quotes; the quotes end it.  A line break
    behind a backslash is dropped. -/
def doublePiece : Reader (Option (List Char)) := do
  if ← accept '"' then pure none
  else if ← accept '\\' then
    match ← ahead with
    | [] => failure
    | c :: _ =>
      if isBreak c then
        let _ ← lineBreak
        return some (← gap 0).breaks
      else return some [← escape]
  else return some [← next]

/-- Reads a quoted scalar piece by piece, from behind the opening quotes. -/
def quoted (piece : Reader (Option (List Char))) : Reader String :=
  loop (fun done => do
    let c ← here
    if isDocumentMark c || c.rest.isEmpty then failure
    else if startsBlank c.rest then return .inl ((← gap 0).text.reverse ++ done)
    else
      match ← piece with
      | some cs => pure (.inl (cs.reverse ++ done))
      | none => pure (.inr (String.ofList done.reverse))) []

/-! ## §3. Plain scalars -/

/-- The characters that end a plain scalar inside brackets. -/
def isFlowMark (c : Char) : Bool :=
  c == ',' || c == '[' || c == ']' || c == '\x7b' || c == '\x7d'

/-- Does the text of a plain scalar end in front of this text? -/
def endsPlain (inFlow : Bool) : List Char → Bool
  | [] => true
  | c :: cs => (c == ':' && startsBlank cs) || (inFlow && isFlowMark c)

/-- Inside brackets, a colon in front of one of their marks is refused. -/
def isMisplacedColon (inFlow : Bool) : List Char → Bool
  | ':' :: c :: _ => inFlow && (isFlowMark c || c == '?')
  | _ => false

/-- A plain scalar that is being read. -/
structure Plain where
  /-- The text so far, last character first. -/
  done : List Char
  /-- The gap behind it. -/
  gap : Gap
deriving Inhabited

/-- The text so far. -/
def Plain.text (p : Plain) : String :=
  String.ofList p.done.reverse

/-- Does the scalar so far have line breaks behind it? -/
def Plain.isBroken (p : Plain) : Bool :=
  !p.gap.breaks.isEmpty

/-- Reads a plain scalar; outside of brackets, its further lines start at least at the
    given column.  Also says whether it ends behind a line break. -/
def plain (inFlow : Bool) (column : Nat) : Reader (String × Bool) :=
  loop (fun (p : Plain) => do
    let c ← here
    let afterGap := p.isBroken || !p.gap.spaces.isEmpty
    if isDocumentMark c || (afterGap && c.rest.head? == some '#') then
      pure (.inr (p.text, p.isBroken))
    else if isMisplacedColon inFlow c.rest then failure
    else if endsPlain inFlow c.rest then pure (.inr (p.text, p.isBroken))
    else if startsBlank c.rest then
      let p := { p with gap := ← gap column }
      if !inFlow && (← here).column < column then pure (.inr (p.text, p.isBroken))
      else pure (.inl p)
    else
      let ch ← next
      pure (.inl ⟨ch :: (p.gap.text.reverse ++ p.done), ⟨[], []⟩⟩)) ⟨[], ⟨[], []⟩⟩

/-! ## §4. Block scalars -/

/-- What becomes of the line breaks at the end of a block. -/
inductive Chomping where
  /-- All are dropped. -/
  | strip
  /-- The first one stays. -/
  | clip
  /-- All stay. -/
  | keep
deriving DecidableEq, Inhabited

/-- The header of a block: what becomes of its end, and how far its lines are
    indented, if that is said. -/
structure Header where
  chomping : Chomping
  indentation : Option Nat
deriving DecidableEq, Inhabited

/-- Reads an indicator of chomping, if one comes next. -/
def chomping? : Reader (Option Chomping) := do
  if ← accept '+' then pure (some .keep)
  else if ← accept '-' then pure (some .strip)
  else pure none

/-- Reads an indicator of indentation, if one comes next. -/
def indentation? : Reader (Option Nat) := do
  match ← ahead with
  | c :: _ =>
    if c == '0' then failure
    else if c.isDigit then do
      skip 1
      pure (some (c.toNat - '0'.toNat))
    else pure none
  | [] => pure none

/-- Reads the header of a block; its indicators may stand in either order. -/
def header : Reader Header := do
  match ← chomping? with
  | some chomping => do
    let indentation ← indentation?
    endLine
    pure ⟨chomping, indentation⟩
  | none => do
    let indentation ← indentation?
    let chomping ← if indentation.isSome then chomping? else pure none
    endLine
    pure ⟨chomping.getD .clip, indentation⟩

/-- Passes over empty lines and the indentation of the line behind them.  Gives their
    line breaks and the largest column of an indentation.  As long as the indentation of
    the block is open, all spaces count. -/
def emptyLines (indentation : Option Nat) : Reader (List Char × Nat) :=
  loop (fun (breaks, widest) => do
    let inside (column : Nat) : Bool := indentation.all (column < ·)
    let column := (← here).column
    let spaces := (← ahead).takeWhile (· == ' ')
    skip (match indentation with
      | none => spaces.length
      | some n => min spaces.length (n - column))
    let c ← here
    let widest := max widest c.column
    match c.rest with
    | '\t' :: _ =>
      if inside c.column then failure else pure (.inr (breaks.reverse, widest))
    | ch :: _ =>
      if isBreak ch then return .inl ((← lineBreak) :: breaks, widest)
      else pure (.inr (breaks.reverse, widest))
    | [] => pure (.inr (breaks.reverse, widest))) ([], 0)

/-- One line of a block, with the line breaks behind it. -/
structure Line where
  text : List Char
  /-- The line break at its end; the last line of a text may have none. -/
  ending : List Char
  /-- The line breaks of the empty lines behind it. -/
  empty : List Char
deriving Inhabited

/-- Is the line indented more than the block? -/
def Line.isIndented (l : Line) : Bool :=
  l.text.head?.any isSpace

/-- What stands for the line breaks between two lines of a folded block: lines that are
    indented more than the block are not folded. -/
def Line.join (l next : Line) : List Char :=
  if l.ending == ['\n'] && !l.isIndented && !next.isIndented then fold (l.ending ++ l.empty)
  else l.ending ++ l.empty

/-- What stands for the line breaks at the end of a block. -/
def Line.finish (l : Line) : Chomping → List Char
  | .strip => []
  | .clip => l.ending
  | .keep => l.ending ++ l.empty

/-- The text of the lines of a block. -/
def join (literal : Bool) (chomping : Chomping) : List Line → List Char
  | [] => []
  | [l] => l.text ++ l.finish chomping
  | l :: next :: ls =>
    l.text ++ (if literal then l.ending ++ l.empty else l.join next) ++
      join literal chomping (next :: ls)

/-- Reads the lines of a block. -/
def blockLines (indentation : Nat) : Reader (List Line) :=
  loop (fun done => do
    let c ← here
    if c.column == indentation && !c.rest.isEmpty then
      let text ← takeWhile fun c => !isBreak c
      let ending ← if (← ahead).isEmpty then pure [] else do pure [← lineBreak]
      let (empty, _) ← emptyLines (some indentation)
      pure (.inl (⟨text, ending, empty⟩ :: done))
    else pure (.inr done.reverse)) []

/-- Reads a block scalar from behind its indicator; `parent` is the indentation of the
    block around it, if there is one. -/
def block (literal : Bool) (parent : Option Nat) : Reader String := do
  let h ← header
  let given := h.indentation.map (parent.getD 0 + ·)
  let (first, widest) ← emptyLines given
  let least := (parent.map (· + 1)).getD 0
  let lines ← blockLines (given.getD (max (max widest least) 1))
  let front := if lines.isEmpty && h.chomping != .keep then [] else first
  pure (String.ofList (front ++ join literal h.chomping lines))

end TagExpander.Yaml.Scalar
