/-
  TagExpander.CommandLine.Style — coloured text on a terminal.
-/

import TagExpander.Shell

namespace TagExpander.CommandLine

/-- A look of text on a terminal: the codes that switch it on, one after the other. -/
structure Style where
  codes : List Nat
deriving DecidableEq, Inhabited

namespace Style

/-- A sequence that switches a code on. -/
def sequence (code : Nat) : String :=
  "\x1b[" ++ toString code ++ "m"

/-- A text in this style. -/
def painted (s : Style) (text : String) : String :=
  String.join (s.codes.map sequence) ++ text ++ sequence 0

/-- A text in this style, where colours are wanted. -/
def paint (s : Style) (colours : Bool) (text : String) : String :=
  if colours then s.painted text else text

/-- The style of a report of success. -/
def success : Style := ⟨[32]⟩

/-- The style of a report of failure. -/
def failure : Style := ⟨[31]⟩

/-- The style of a heading. -/
def heading : Style := ⟨[36, 1]⟩

/-- The style of the word in front of a usage fault. -/
def alarm : Style := ⟨[1, 31]⟩

/-- The style of what is wrong in a command line. -/
def culprit : Style := ⟨[33]⟩

/-- The style of what stands in a command line as such. -/
def literal : Style := ⟨[1]⟩

end Style

variable {m : Type → Type} [Monad m]

/-- Are colours wanted in reports?  They are not, unless they are asked for; `0` does
    not ask for them. -/
def reportColours (shell : Shell m) : m Bool := do
  return (← shell.environment "CLICOLOR_FORCE").any (· != "0")

/-- Has a variable a value other than the empty one? -/
def isGiven (shell : Shell m) (name : String) : m Bool := do
  return (← shell.environment name).any fun value => !value.isEmpty

/-- Are colours wanted in usage faults?  Whoever wants none is asked first. -/
def usageColours (shell : Shell m) : m Bool := do
  return !(← isGiven shell "NO_COLOR") && (← isGiven shell "CLICOLOR_FORCE")

end TagExpander.CommandLine
