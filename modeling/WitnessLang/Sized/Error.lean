import WitnessLang.Diagnostic.Code
import WitnessLang.Source.Span

set_option autoImplicit false

namespace WitnessLang.Sized

inductive Cause where
  /-- There is no such struct. -/
  | unknownStruct (type : String)
  /-- A struct holds itself; each type of the cycle holds the next. -/
  | recursive (type : String) (cycle : List String)
  deriving DecidableEq, Repr

namespace Cause

def kindName : Cause → String
  | .unknownStruct _ => "UnknownStruct"
  | .recursive _ _ => "RecursiveUnsized"

def code : Cause → Code
  | .unknownStruct _ => .structUnmeasured
  | .recursive _ _ => .recursiveUnsized

def type : Cause → String
  | .unknownStruct t | .recursive t _ => t

def cycle : Cause → List String
  | .unknownStruct _ => []
  | .recursive _ ts => ts

def message : Cause → String
  | .unknownStruct t => "no metadata for struct " ++ t
  | .recursive t [] => "recursive value type has infinite size (" ++ t ++ ")"
  | .recursive _ ts =>
    "recursive value type has infinite size (cycle: " ++ " -> ".intercalate ts ++ ")"

end Cause

structure Error where
  cause : Cause
  span : Span
  /-- The definition it was found in. -/
  definition : String
  deriving DecidableEq, Repr

def Error.message (e : Error) : String := "in " ++ e.definition ++ ": " ++ e.cause.message

inductive Failure where
  | error (error : Error)
  /-- The program does not hang together, as no checked program does. -/
  | inconsistent (message : String)
  /-- Structs that hold ever larger applications of themselves. -/
  | endless
  deriving DecidableEq, Repr

end WitnessLang.Sized
