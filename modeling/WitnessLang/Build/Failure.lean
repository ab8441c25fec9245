import WitnessLang.Diagnostic.Bag
import WitnessLang.Ir.Lower
import WitnessLang.Ir.Validate
import WitnessLang.Ownership.Count
import WitnessLang.Resolved.Error
import WitnessLang.Sized.Error
import WitnessLang.Surface.Error
import WitnessLang.Typed.Error

set_option autoImplicit false

namespace WitnessLang.Build

inductive Failure where
  | parsing (error : Surface.SyntaxError)
  /-- The findings have been reported on the way. -/
  | reported
  | resolving (error : Resolved.Error)
  | checking (error : Typed.Error)
  | measuring (error : Sized.Error)
  | layout (name : String) (error : LayoutError)
  /-- The lowered program breaks rules of its form. -/
  | malformed (problems : List Ir.Problem)
  | counting (error : Ownership.Error)
  /-- The work was called off. -/
  | cancelled

/-- An end without a finding: the trees do not hang together, or have no end. -/
structure Crash where
  message : Option String
  deriving DecidableEq, Repr

namespace Failure

/-- The first function of a lowered program that is malformed in itself, and how. -/
def malformedFunction? : List Ir.Problem → Option (String × List Ir.FunctionProblem)
  | [] => none
  | .malformed function problems :: _ => some (function, problems)
  | .repeatedFunction _ :: rest => malformedFunction? rest

def code : Failure → Code
  | .parsing e => e.code
  | .resolving e => e.cause.code
  | .checking e => e.cause.code
  | .measuring e => e.cause.code
  | .layout _ _ => .loweringFailed
  | .malformed ps => if (malformedFunction? ps).isSome then .loweringFailed else .unknown
  | .counting e => e.cause.code
  | .reported | .cancelled => .unknown

def message : Failure → String
  | .parsing e => e.text
  | .reported => "diagnostics reported"
  | .resolving e => e.message
  | .checking e => e.message
  | .measuring e => e.message
  | .layout name e => "layout of " ++ name ++ ": " ++ e.message
  | .malformed ps => Ir.joinLines (ps.map (·.message))
  | .counting e => e.message
  | .cancelled => "context canceled"

def span : Failure → Span
  | .parsing e => e.span
  | .resolving e => e.span
  | .checking e => e.span
  | .measuring e => e.span
  | _ => {}

/-- What is reported about a failure, given the lowered functions if there are any: a breach
of ownership is placed at its function. -/
def diagnostic? (functions : List Ir.Function) : Failure → Option Diagnostic
  | .reported => none
  | .parsing e =>
    let d := Diagnostic.error e.code e.span e.message
    some (if e.context.isEmpty then d else d.withNote e.span ("while parsing " ++ e.trail))
  | .resolving e =>
    let d := Diagnostic.error e.cause.code e.span e.message
    match e.cause with
    | .duplicateDefinition previous => some (d.withNote previous "previous definition here")
    | _ => some d
  | .checking e =>
    let d := Diagnostic.error e.cause.code e.span e.message
    match e.cause with
    | .genericMismatch name first _ =>
      some (d.withNote e.span ("generic " ++ name ++ " was bound to " ++ first.render ++ " first"))
    | _ => some d
  | .counting e =>
    let place := (functions.find? fun f => f.name == e.function).map (·.span)
    some (Diagnostic.error e.cause.code (place.getD {}) e.message)
  | f => some (Diagnostic.error f.code f.span f.message)

end Failure

end WitnessLang.Build
