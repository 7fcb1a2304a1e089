/-
  TagExpander.Argument.Binding — arguments assigned to the parameters of a handler.

  A handler lists its parameters.  A keyed argument goes to the parameter of that
  name (up to ASCII case), an argument without a key to the first parameter, at or
  behind the one filled last in this way, that has no value yet.
-/

import TagExpander.Argument.Basic

namespace TagExpander

/-- Why arguments do not fit a list of parameters. -/
inductive BindingFault where
  /-- A key that is no parameter, as it was written. -/
  | unknown (key : String)
  /-- More values without a key than parameters to take them. -/
  | tooMany (parameters : Nat)
  /-- A second value for one parameter. -/
  | duplicate (parameter : String)
  /-- No value for a parameter that needs one. -/
  | missing (parameter : String)
  /-- An empty or absent value for a parameter that needs a text. -/
  | invalid (parameter : String)
deriving DecidableEq, Inhabited

/-- The wording of a binding fault. -/
def BindingFault.message : BindingFault → String
  | .unknown key => "Unknown argument `" ++ key ++ "`"
  | .tooMany n => "Too many positional arguments (expected at most " ++ toString n ++ ")"
  | .duplicate p => "Duplicate argument `" ++ p ++ "`"
  | .missing p => "Missing required argument `" ++ p ++ "`"
  | .invalid p => "Invalid " ++ p

/-- Values by parameter; parameters are kept in their folded spelling. -/
structure Binding where
  /-- Folded parameter names with their values, latest first. -/
  values : List (String × String)
deriving DecidableEq, Inhabited

namespace Binding

/-- The value of a parameter, under any spelling of its name. -/
def get? (b : Binding) (parameter : String) : Option String :=
  b.values.lookup (Text.fold parameter)

/-- Has the parameter a value? -/
def has (b : Binding) (parameter : String) : Bool :=
  (b.get? parameter).isSome

/-- Gives a parameter its value; a parameter takes one value only. -/
def assign (b : Binding) (parameter value : String) : Except BindingFault Binding :=
  if b.has parameter then .error (.duplicate parameter)
  else .ok ⟨(Text.fold parameter, value) :: b.values⟩

/-- Succeeds if every one of the parameters has a value. -/
def require (b : Binding) (parameters : List String) : Except BindingFault Unit :=
  match parameters.find? (fun p => !b.has p) with
  | some p => .error (.missing p)
  | none => .ok ()

/-- The value of a parameter that must have one, and not the empty one. -/
def requireText (b : Binding) (parameter : String) : Except BindingFault String :=
  match b.get? parameter with
  | some value => if value.isEmpty then .error (.invalid parameter) else .ok value
  | none => .error (.invalid parameter)

end Binding

namespace Arguments

/-- Assigns arguments from left to right.  The first list holds the parameters behind the
    one that an argument without a key took last. -/
def bindFrom (parameters : List String) :
    List String → Binding → List Argument → Except BindingFault Binding
  | _, b, [] => .ok b
  | free, b, ⟨some key, value⟩ :: args =>
    match parameters.find? (Text.same key) with
    | none => .error (.unknown key)
    | some p => do bindFrom parameters free (← b.assign p value) args
  | free, b, ⟨none, value⟩ :: args =>
    match free.dropWhile b.has with
    | [] => .error (.tooMany parameters.length)
    | p :: free => do bindFrom parameters free (← b.assign p value) args

/-- Assigns all arguments to the parameters of a handler. -/
def bind (args : Arguments) (parameters : List String) : Except BindingFault Binding :=
  bindFrom parameters parameters ⟨[]⟩ args.items

end Arguments

end TagExpander
