import WitnessLang.Diagnostic.Code
import WitnessLang.Source.Span
import WitnessLang.Text.Quoted
import WitnessLang.Types.Basic

set_option autoImplicit false

namespace WitnessLang.Typed

inductive Cause where
  | mismatch (expected found : Ty)
  /-- A type parameter would have to be two types at once. -/
  | genericMismatch (name : String) (first second : Ty)
  /-- Nothing says what a type parameter is. -/
  | unspecifiedGeneric (name : String)
  | unknownVariable (name : String)
  | unknownFunction (name : String)
  | unknownStruct (name : String)
  | arity (name : String) (want got : Nat)

namespace Cause

def kindName : Cause → String
  | .mismatch _ _ => "TypeMismatch"
  | .genericMismatch _ _ _ => "GenericTypeMismatch"
  | .unspecifiedGeneric _ => "UnspecifiedGeneric"
  | .unknownVariable _ => "UnknownVariable"
  | .unknownFunction _ => "UnknownFunction"
  | .unknownStruct _ => "UnknownStruct"
  | .arity _ _ _ => "ArityMismatch"

def code : Cause → Code
  | .mismatch _ _ => .typeMismatch
  | .genericMismatch _ _ _ => .genericMismatch
  | .unspecifiedGeneric _ => .unspecifiedGeneric
  | .unknownVariable _ => .unknownVariable
  | .unknownFunction _ => .unknownFunction
  | .unknownStruct _ => .unknownStruct
  | .arity _ _ _ => .arityMismatch

def name : Cause → String
  | .mismatch _ _ => ""
  | .genericMismatch n _ _ | .unspecifiedGeneric n | .unknownVariable n | .unknownFunction n
  | .unknownStruct n | .arity n _ _ => n

/-- The type that was expected and the one that was found instead. -/
def expectedFound? : Cause → Option (Ty × Ty)
  | .mismatch expected found => some (expected, found)
  | _ => none

/-- The two types that a type parameter would have to be. -/
def rivals? : Cause → Option (Ty × Ty)
  | .genericMismatch _ first second => some (first, second)
  | _ => none

/-- How many arguments are wanted and how many there are. -/
def counts? : Cause → Option (Nat × Nat)
  | .arity _ want got => some (want, got)
  | _ => none

def message : Cause → String
  | .mismatch expected found =>
    "type mismatch: expected " ++ expected.render ++ ", found " ++ found.render
  | .genericMismatch name first second =>
    "generic " ++ name ++ " bound to both " ++ first.render ++ " and " ++ second.render
  | .unspecifiedGeneric name => "cannot infer generic " ++ name
  | .unknownVariable name => "unknown variable " ++ Quoted.ofString name
  | .unknownFunction name => "unknown function " ++ Quoted.ofString name
  | .unknownStruct name => "unknown struct " ++ Quoted.ofString name
  | .arity name want got =>
    name ++ " expects " ++ toString want ++ " arguments, got " ++ toString got

end Cause

structure Error where
  cause : Cause
  span : Span
  /-- The definition it was found in. -/
  definition : String

def Error.message (e : Error) : String := "in " ++ e.definition ++ ": " ++ e.cause.message

end WitnessLang.Typed
