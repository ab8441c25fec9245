import WitnessLang.Diagnostic.Code
import WitnessLang.Source.Span
import WitnessLang.Text.Outline
import WitnessLang.Text.Quoted

set_option autoImplicit false

namespace WitnessLang.Resolved

/-- Why a name cannot be resolved. Faults of fields list the fields the struct has. -/
inductive Cause where
  | undefinedVariable
  | undefinedType
  | undefinedStruct
  | extraField (declared : List String)
  | missingField (declared : List String)
  | patternMissingField (declared : List String)
  /-- The name is taken; the span is that of the earlier declaration, if there is one. -/
  | duplicateDefinition (previous : Span)
  deriving DecidableEq, Repr

namespace Cause

def kindName : Cause → String
  | .undefinedVariable => "UndefinedVariable"
  | .undefinedType => "UndefinedType"
  | .undefinedStruct => "UndefinedStruct"
  | .extraField _ => "StructLiteralContainsExtraField"
  | .missingField _ => "StructLiteralMissingField"
  | .patternMissingField _ => "StructPatternMissingField"
  | .duplicateDefinition _ => "DuplicateDefinition"

def code : Cause → Code
  | .undefinedVariable => .undefinedVariable
  | .undefinedType => .undefinedType
  | .undefinedStruct => .undefinedStruct
  | .extraField _ => .extraField
  | .missingField _ => .missingField
  | .patternMissingField _ => .patternMissingField
  | .duplicateDefinition _ => .duplicateDefinition

def declared : Cause → List String
  | .extraField fs | .missingField fs | .patternMissingField fs => fs
  | _ => []

def previous : Cause → Span
  | .duplicateDefinition s => s
  | _ => {}

end Cause

structure Error where
  cause : Cause
  name : String
  span : Span
  deriving DecidableEq, Repr

def fieldList (fs : List String) : String := " (fields: " ++ commaSeparated fs ++ ")"

def Error.message (e : Error) : String :=
  let name := Quoted.ofString e.name
  match e.cause with
  | .undefinedVariable => "undefined variable " ++ name
  | .undefinedType => "undefined type " ++ name
  | .undefinedStruct => "undefined struct " ++ name
  | .extraField fs => "struct has no field " ++ name ++ fieldList fs
  | .missingField fs => "struct literal is missing field " ++ name ++ fieldList fs
  | .patternMissingField fs => "struct pattern is missing field " ++ name ++ fieldList fs
  | .duplicateDefinition _ => name ++ " is already defined"

end WitnessLang.Resolved
