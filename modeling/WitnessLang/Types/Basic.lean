import WitnessLang.Scope.Tag
import WitnessLang.Text.Outline

set_option autoImplicit false

namespace WitnessLang

/-- A place for a type that inference has to find, minted for a type parameter. -/
structure Cell where
  number : Nat
  /-- The name of the type parameter. -/
  generic : String
  deriving DecidableEq, Repr, Inhabited

inductive Ty where
  /-- A built-in type, or a struct applied to as many types as it has parameters. -/
  | named (name : Ident) (args : List Ty)
  /-- A type parameter of the definition at hand. -/
  | generic (name : Ident)
  | func (args : List Ty) (result : Ty)
  | cell (cell : Cell)
  deriving Inhabited, Repr

abbrev Substitution := List (Tag × Ty)

namespace Ty

def float : Ty := .named ⟨.float, "F64", true⟩ []

def bool : Ty := .named ⟨.bool, "Bool", true⟩ []

def witness : Ty := .named ⟨.witness, "Type", true⟩ []

def isPrimitive : Ty → Bool
  | .named name _ => name.tag.isBuiltin
  | _ => false

mutual

/-- A type as it is written in source texts; a cell is written with a question mark. -/
def render : Ty → String
  | .named name args =>
    if args.isEmpty then name.name else name.name ++ "[" ++ commaSeparated (renderAll args) ++ "]"
  | .generic name => name.name
  | .func args result => "(" ++ commaSeparated (renderAll args) ++ ") -> " ++ result.render
  | .cell c => "?" ++ c.generic ++ toString c.number

def renderAll : List Ty → List String
  | [] => []
  | t :: rest => t.render :: renderAll rest

end

mutual

/-- A spelling by tags, the same for the same type and different for different types. -/
def key : Ty → String
  | .named name args =>
    if args.isEmpty then "N" ++ name.tag.render
    else "N" ++ name.tag.render ++ "[" ++ commaSeparated (keys args) ++ "]"
  | .generic name => "G" ++ name.tag.render
  | .func args result => "F(" ++ commaSeparated (keys args) ++ ")" ++ result.key
  | .cell c => "?" ++ c.generic ++ toString c.number

def keys : List Ty → List String
  | [] => []
  | t :: rest => t.key :: keys rest

end

mutual

def mapCells (f : Cell → Ty) : Ty → Ty
  | .named name args => .named name (mapCellsAll f args)
  | .generic name => .generic name
  | .func args result => .func (mapCellsAll f args) (mapCells f result)
  | .cell c => f c

def mapCellsAll (f : Cell → Ty) : List Ty → List Ty
  | [] => []
  | t :: rest => mapCells f t :: mapCellsAll f rest

end

mutual

/-- Replaces type parameters; those without a replacement stay. -/
def substitute (s : Substitution) : Ty → Ty
  | .named name args => .named name (substituteAll s args)
  | .generic name => (s.lookup name.tag).getD (.generic name)
  | .func args result => .func (substituteAll s args) (substitute s result)
  | .cell c => .cell c

def substituteAll (s : Substitution) : List Ty → List Ty
  | [] => []
  | t :: rest => substitute s t :: substituteAll s rest

end

mutual

/-- The cells of a type from left to right, repetitions included. -/
def cells : Ty → List Cell
  | .named _ args => cellsAll args
  | .generic _ => []
  | .func args result => cellsAll args ++ result.cells
  | .cell c => [c]

def cellsAll : List Ty → List Cell
  | [] => []
  | t :: rest => t.cells ++ cellsAll rest

end

mutual

/-- The type parameters of a type from left to right, repetitions included. -/
def parameters : Ty → List Ident
  | .named _ args => parametersAll args
  | .generic name => [name]
  | .func args result => parametersAll args ++ result.parameters
  | .cell _ => []

def parametersAll : List Ty → List Ident
  | [] => []
  | t :: rest => t.parameters ++ parametersAll rest

end

mutual

def size : Ty → Nat
  | .named _ args => 1 + sizeAll args
  | .generic _ => 1
  | .func args result => 1 + sizeAll args + result.size
  | .cell _ => 1

def sizeAll : List Ty → Nat
  | [] => 0
  | t :: rest => t.size + sizeAll rest

end

theorem keys_eq_map (ts : List Ty) : keys ts = ts.map key := by
  induction ts with
  | nil => rfl
  | cons t rest ih => simp [keys, ih]

theorem substituteAll_eq_map (s : Substitution) (ts : List Ty) :
    substituteAll s ts = ts.map (substitute s) := by
  induction ts with
  | nil => rfl
  | cons t rest ih => simp [substituteAll, ih]

end Ty

/-- Adds names whose tags are not there yet, in order. -/
def addIdents (known : List Ident) (more : List Ident) : List Ident :=
  more.foldl (fun known i => if known.any (·.tag == i.tag) then known else known ++ [i]) known

/-- The type parameters of a type, each once, in the order of their first occurrence. -/
def Ty.generics (t : Ty) : List Ident := addIdents [] t.parameters

end WitnessLang
