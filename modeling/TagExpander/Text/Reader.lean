/-
  TagExpander.Text.Reader — readers of texts.

  A reader takes what it reads from a state, or fails; a reader of texts takes it from
  the front of a text.  Every round of a loop but the last takes at least one item of
  what there is to take.  So the items ahead of a loop bound its rounds, and loops are
  total functions.
-/

namespace TagExpander.Text

/-! ## §1. Loops -/

/-- Goes round a loop until it ends with a result, at most once for every item ahead and
    once more. -/
def loopOver {σ α β γ : Type} (step : β → StateT σ Option (β ⊕ α)) :
    (items : List γ) → β → StateT σ Option α
  | [], b => do
    match ← step b with
    | .inl _ => failure
    | .inr a => pure a
  | _ :: items, b => do
    match ← step b with
    | .inl b => loopOver step items b
    | .inr a => pure a

/-- Passes on what is there, or fails. -/
def orFail {σ α : Type} : Option α → StateT σ Option α
  | some a => pure a
  | none => failure

/-! ## §2. Readers -/

/-- Takes a part of a text from its front, or fails. -/
abbrev Reader (α : Type) := StateT (List Char) Option α

namespace Reader

variable {α β : Type}

/-- The text ahead. -/
def ahead : Reader (List Char) := get

/-- Is the end of the text reached? -/
def atEnd : Reader Bool := return (← get).isEmpty

/-- The next character, which stays. -/
def peek? : Reader (Option Char) := return (← get).head?

/-- Takes the next character. -/
def next : Reader Char := do
  match ← get with
  | [] => failure
  | c :: cs => set cs; pure c

/-- Takes the longest run of characters that satisfy a test. -/
def takeWhile (p : Char → Bool) : Reader (List Char) := do
  let cs ← get
  set (cs.dropWhile p)
  pure (cs.takeWhile p)

/-- Passes over the longest run of characters that satisfy a test. -/
def skipWhile (p : Char → Bool) : Reader Unit := do
  set ((← get).dropWhile p)

/-- Takes a given text, if it comes next. -/
def accept (expected : String) : Reader Bool := do
  let cs ← get
  if expected.toList.isPrefixOf cs then
    set (cs.drop expected.length)
    pure true
  else pure false

/-- Takes a given text, which must come next. -/
def expect (expected : String) : Reader Unit := do
  if ← accept expected then pure () else failure

/-- Takes a character, which must satisfy a test. -/
def satisfy (p : Char → Bool) : Reader Char := do
  let c ← next
  if p c then pure c else failure

/-- Takes a given number of characters, which must satisfy a test. -/
def exactly (p : Char → Bool) : Nat → Reader (List Char)
  | 0 => pure []
  | n + 1 => do
    let c ← satisfy p
    let cs ← exactly p n
    pure (c :: cs)

/-- Goes round a loop until it ends with a result. -/
def loop (step : β → Reader (β ⊕ α)) (b : β) : Reader α := do
  loopOver step (← get) b

/-- Reads a whole text. -/
def readAll (r : Reader α) (cs : List Char) : Option α :=
  match r.run cs with
  | some (a, []) => some a
  | _ => none

end Reader

end TagExpander.Text
