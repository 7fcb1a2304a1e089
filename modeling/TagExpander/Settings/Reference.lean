/-
  TagExpander.Settings.Reference — references to environment variables in a text.

      ${NAME}             the value of NAME, which must be set
      ${NAME:-fallback}   the value of NAME, or else the fallback
      $NAME               the value of NAME, which must be set
      $$                  a dollar sign

  A text is cut into its pieces first; the values of the variables are not cut again.
  A brace that is not closed, and a dollar sign before anything else, stand for
  themselves.  `:-` right behind the brace belongs to the name.
-/

import TagExpander.Text.Alphanumeric

namespace TagExpander.Settings

/-- A piece of a text with references. -/
inductive Piece where
  /-- Text that stands for itself. -/
  | text (cs : List Char)
  /-- The value of a variable, or else the fallback, if there is one. -/
  | reference (name : String) (fallback : Option String)
deriving DecidableEq, Inhabited

/-- The characters of a name without braces. -/
def isNameChar (c : Char) : Bool :=
  Text.isAlphanumeric c || c == '_'

/-- Cuts a text at the first `:-`, which is left out. -/
def cutFallback : List Char → Option (List Char × List Char)
  | [] => none
  | ':' :: '-' :: cs => some ([], cs)
  | c :: cs => (cutFallback cs).map fun (name, fallback) => (c :: name, fallback)

/-- The reference between two braces. -/
def bracedReference (inside : List Char) : Piece :=
  match cutFallback inside with
  | some (n :: name, fallback) =>
    .reference (String.ofList (n :: name)) (some (String.ofList fallback))
  | _ => .reference (String.ofList inside) none

/-- The pieces of a text. -/
def pieces (cs : List Char) : List Piece :=
  match cs with
  | [] => []
  | '$' :: '$' :: cs => .text ['$'] :: pieces cs
  | '$' :: '{' :: cs =>
    match _h : cs.dropWhile (· != '}') with
    | [] => .text ['$', '{'] :: pieces cs
    | _ :: rest => bracedReference (cs.takeWhile (· != '}')) :: pieces rest
  | '$' :: c :: cs =>
    if isNameChar c then
      .reference (String.ofList (c :: cs.takeWhile isNameChar)) none ::
        pieces (cs.dropWhile isNameChar)
    else .text ['$'] :: pieces (c :: cs)
  | c :: cs => .text [c] :: pieces cs
termination_by cs.length
decreasing_by
  · simp only [List.length_cons]
    omega
  · simp only [List.length_cons]
    omega
  · have hle := (List.dropWhile_sublist (· != '}') (l := cs)).length_le
    rw [_h, List.length_cons] at hle
    simp only [List.length_cons]
    omega
  · have hle := (List.dropWhile_sublist isNameChar (l := cs)).length_le
    simp only [List.length_cons]
    omega
  · simp only [List.length_cons]
    omega
  · simp only [List.length_cons]
    omega

/-- The text of pieces, with the values of the variables; the name of the first
    variable that is not set and has no fallback, if there is one. -/
def resolve {m : Type → Type} [Monad m] (value? : String → m (Option String)) :
    List Piece → m (Except String (List Char))
  | [] => pure (.ok [])
  | .text cs :: ps => do
    let rest ← resolve value? ps
    pure (rest.map (cs ++ ·))
  | .reference name fallback :: ps => do
    match (← value? name).or fallback with
    | none => pure (.error name)
    | some value =>
      let rest ← resolve value? ps
      pure (rest.map (value.toList ++ ·))

/-- Does a text contain a reference in braces? -/
def hasBraces : List Char → Bool
  | '$' :: '{' :: _ => true
  | _ :: cs => hasBraces cs
  | [] => false

/-- Replaces the references of a text; a text without braces has none. -/
def expandReferences {m : Type → Type} [Monad m] (value? : String → m (Option String))
    (text : String) : m (Except String String) :=
  if hasBraces text.toList then do
    let expanded ← resolve value? (pieces text.toList)
    pure (expanded.map String.ofList)
  else pure (.ok text)

end TagExpander.Settings
