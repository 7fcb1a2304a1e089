/-
  TagExpander.Failure — what ends a pass early.
-/

import TagExpander.Markup.Scan
import TagExpander.Handler.Basic

namespace TagExpander

/-- Why a pass fails. -/
inductive Failure where
  /-- The markers of a text are malformed: of the document itself, or of the output
      of a tag of the name `producer`. -/
  | malformed (cause : Markup.Malformed) (producer : Option String)
  /-- No handler has this name. -/
  | unknown (name : String)
  /-- The handler of a tag did not understand its arguments. -/
  | argument (name message : String)
  /-- The handler of a tag failed, with the causes behind that. -/
  | fault (name message : String) (causes : List String)
  /-- Output was nested more deeply than the limit. -/
  | tooDeep (limit : Nat)
  /-- The pass was asked to stop. -/
  | stopped
deriving DecidableEq, Inhabited

namespace Failure

/-- The wording of a failure. -/
def message : Failure → String
  | .malformed cause producer =>
    "malformed shortcode `" ++ cause.name ++ "` at line " ++ toString cause.line ++ " (byte " ++
      toString cause.position ++ ")" ++
      (match producer with
        | some name => " in output of `" ++ name ++ "`"
        | none => "") ++
      ": " ++ cause.fault.message cause.name
  | .unknown name => "unknown shortcode `" ++ name ++ "`"
  | .argument name message => "invalid arguments for shortcode `" ++ name ++ "`: " ++ message
  | .fault name message _ => "shortcode `" ++ name ++ "` failed: " ++ message
  | .tooDeep limit => "maximum shortcode expansion depth (" ++ toString limit ++ ") exceeded"
  | .stopped => "shortcode processing cancelled"

/-- The failure of the handler of a tag. -/
def ofHandler (name : String) : HandlerFault → Failure
  | .argument message => .argument name message
  | .fault message causes => .fault name message causes

/-- Names the tag whose output was being expanded; a producer that is named already,
    the innermost one, stays. -/
def inOutputOf (name : String) : Failure → Failure
  | .malformed cause none => .malformed cause (some name)
  | f => f

end Failure

end TagExpander
