import WitnessLang.Surface.Tree
import WitnessLang.Token.Kind

set_option autoImplicit false

namespace WitnessLang

/-- Words that are numbered one after the other; all other numbers share a word. -/
structure Vocabulary where
  /-- The number of the first word. -/
  first : Nat := 1
  words : List String
  other : String := "Unknown"
  deriving Repr

namespace Vocabulary

def word (v : Vocabulary) (n : Nat) : String :=
  if n < v.first then v.other else v.words.getD (n - v.first) v.other

def tokens : Vocabulary := ⟨0, TokenKind.all.map TokenKind.name, "unknown"⟩

def definitions : Vocabulary := ⟨1, ["func", "struct"], "invalid"⟩

def operators : Vocabulary := ⟨1, ["+", "-", "*", "<"], "?"⟩

def surfaceExprs : Vocabulary where
  words := ["Literal", "Variable", "Call", "Operation", "StructLiteral", "Block", "Annotated",
    "Case", "If", "Closure"]

def resolvedExprs : Vocabulary := { surfaceExprs with first := 0 }

def resolvedCauses : Vocabulary where
  words := ["UndefinedVariable", "UndefinedType", "UndefinedStruct",
    "StructLiteralContainsExtraField", "StructLiteralMissingField", "StructPatternMissingField",
    "DuplicateDefinition"]

def typedExprs : Vocabulary where
  first := 0
  words := ["Literal", "Variable", "CallDirect", "CallClosure", "Operation", "StructLiteral",
    "Block", "If", "Closure"]

def typedCauses : Vocabulary where
  words := ["TypeMismatch", "GenericTypeMismatch", "UnspecifiedGeneric", "UnknownVariable",
    "UnknownFunction", "UnknownStruct", "ArityMismatch"]

/-- Kinds of expressions once type arguments are explicit. -/
def explicitExprs : Vocabulary where
  first := 0
  words := ["Variable", "Literal", "CallDirect", "CallClosure", "Primitive", "Block", "Pack",
    "Unpack", "If", "Closure"]

def conventions : Vocabulary := ⟨0, ["in", "inout", "out"], "?"⟩

def witnesses : Vocabulary := ⟨1, ["Trivial", "Dynamic", "Type"], "?"⟩

def sizedCauses : Vocabulary where
  words := ["UnknownStruct", "RecursiveUnsized"]

def instructions : Vocabulary where
  first := 0
  words := ["Set", "Copy", "Move", "Destroy", "Primitive", "CallDirect", "CallClosure", "Pack",
    "Unpack", "MakeClosure", "If"]
  other := "?"

def modes : Vocabulary := ⟨0, ["copy", "move"], "copy"⟩

def breaches : Vocabulary where
  words := ["WriteTwice", "ReadBeforeWrite", "UseAfterMove"]

end Vocabulary

end WitnessLang
