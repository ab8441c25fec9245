set_option autoImplicit false

namespace WitnessLang

structure Code where
  number : Nat
  deriving DecidableEq, Repr, Inhabited

namespace Code

def unknown : Code := ⟨0⟩
def unknownCharacter : Code := ⟨1001⟩
def malformedNumber : Code := ⟨1002⟩
def unexpectedToken : Code := ⟨2001⟩
def expectedIdentifier : Code := ⟨2002⟩
def expectedType : Code := ⟨2003⟩
def expectedExpression : Code := ⟨2004⟩
def expectedPattern : Code := ⟨2005⟩
def unclosedDelimiter : Code := ⟨2006⟩
def expectedDefinition : Code := ⟨2007⟩
def undefinedVariable : Code := ⟨3001⟩
def undefinedType : Code := ⟨3002⟩
def undefinedStruct : Code := ⟨3003⟩
def extraField : Code := ⟨3004⟩
def missingField : Code := ⟨3005⟩
def patternMissingField : Code := ⟨3006⟩
def duplicateDefinition : Code := ⟨3007⟩
def typeMismatch : Code := ⟨4001⟩
def genericMismatch : Code := ⟨4002⟩
def unspecifiedGeneric : Code := ⟨4003⟩
def unknownVariable : Code := ⟨4004⟩
def unknownFunction : Code := ⟨4005⟩
def unknownStruct : Code := ⟨4006⟩
def arityMismatch : Code := ⟨4007⟩
def structUnmeasured : Code := ⟨5001⟩
def recursiveUnsized : Code := ⟨5002⟩
def loweringFailed : Code := ⟨6001⟩
def writtenTwice : Code := ⟨6101⟩
def readBeforeWrite : Code := ⟨6102⟩
def usedAfterMove : Code := ⟨6103⟩
def loadFailed : Code := ⟨9001⟩

def titles : List (Nat × String) := [
  (0, "Unknown error"),
  (1001, "Unknown character"),
  (1002, "Malformed number literal"),
  (2001, "Unexpected token"),
  (2002, "Expected identifier"),
  (2003, "Expected type"),
  (2004, "Expected expression"),
  (2005, "Expected pattern"),
  (2006, "Unclosed delimiter"),
  (2007, "Expected 'func' or 'struct'"),
  (3001, "Undefined variable"),
  (3002, "Undefined type"),
  (3003, "Undefined struct"),
  (3004, "Struct literal contains extra field"),
  (3005, "Struct literal is missing a field"),
  (3006, "Struct pattern is missing a field"),
  (3007, "Duplicate definition"),
  (4001, "Type mismatch"),
  (4002, "Generic bound to two different types"),
  (4003, "Generic parameter never resolved"),
  (4004, "Unknown variable"),
  (4005, "Unknown function"),
  (4006, "Unknown struct"),
  (4007, "Wrong number of arguments"),
  (5001, "Struct metadata missing"),
  (5002, "Recursive value type has infinite size"),
  (6001, "Lowering failed"),
  (6101, "Variable written twice"),
  (6102, "Variable read before write"),
  (6103, "Variable used after move"),
  (9001, "Failed to load file")]

/-- The letters that stand before the number, by thousands. -/
def family (c : Code) : Option String :=
  match c.number / 1000 with
  | 1 => some "LEX"
  | 2 => some "SYN"
  | 3 => some "QUA"
  | 4 => some "TYP"
  | 5 => some "SIZ"
  | 6 => some "LOW"
  | 9 => some "IO"
  | _ => none

/-- Letters and number; numbers outside every family are all written alike. -/
def id (c : Code) : String :=
  match c.family with
  | some letters => letters ++ toString c.number
  | none => "E0000"

def title (c : Code) : String := (titles.lookup c.number).getD "Unknown error"

def render (c : Code) : String := "[" ++ c.id ++ "]: " ++ c.title

end Code

end WitnessLang
