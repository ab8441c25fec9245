set_option autoImplicit false

namespace WitnessLang

/-- The identity of a declared name: the module that declares it, and a number within the module. -/
structure Tag where
  unit : Nat
  key : Nat
  deriving DecidableEq, Repr, Inhabited

namespace Tag

def builtinUnit : Nat := 0

/-- Names that no source text declares belong to the last module. -/
def syntheticUnit : Nat := Nat.pow 2 32 - 1

def float : Tag := ⟨builtinUnit, 0⟩

def bool : Tag := ⟨builtinUnit, 1⟩

/-- The type of type descriptions, which source texts cannot name. -/
def witness : Tag := ⟨builtinUnit, 2⟩

def isBuiltin (t : Tag) : Bool := t.unit == builtinUnit

def render (t : Tag) : String := toString t.unit ++ "." ++ toString t.key

end Tag

structure Ident where
  tag : Tag
  name : String
  /-- Whether the name alone already tells it apart in generated code. -/
  isGlobal : Bool
  deriving DecidableEq, Repr, Inhabited

/-- The name in generated code: local names carry the number of their tag. -/
def Ident.mangled (i : Ident) : String :=
  if i.isGlobal || i.tag.isBuiltin then i.name else i.name ++ "_" ++ toString i.tag.key

structure TagSource where
  unit : Nat
  next : Nat := 0
  deriving Repr

namespace TagSource

def fresh (s : TagSource) : Tag × TagSource := (⟨s.unit, s.next⟩, { s with next := s.next + 1 })

def synthetic (s : TagSource) (name : String) : Ident × TagSource :=
  (⟨s.fresh.1, name, true⟩, s.fresh.2)

end TagSource

end WitnessLang
