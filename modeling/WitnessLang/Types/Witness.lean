import WitnessLang.Types.Basic

set_option autoImplicit false

namespace WitnessLang

inductive WitnessExpr where
  /-- The description that a variable holds. -/
  | var (name : Ident)
  /-- A constructor of descriptions, applied to the descriptions of the parts. -/
  | build (constructor : Ident) (args : List WitnessExpr)
  deriving Inhabited, Repr

/-- Where the numbers of the constructors for function types start. -/
def functionWitnessBase : Nat := Nat.pow 2 16

/-- The constructor of descriptions of functions with so many parameters. Its number has
32 bits. -/
def functionWitness (arity : Nat) : Ident where
  tag := ⟨Tag.builtinUnit, (functionWitnessBase + arity) % Nat.pow 2 32⟩
  name := toString arity ++ "function"
  isGlobal := true

/-- The constructor for a number of parameters that has to fit 32 bits. -/
def functionWitnessOf (arity : Int) : Except String Ident :=
  if 0 ≤ arity ∧ arity < 0x100000000 then .ok (functionWitness arity.toNat)
  else .error ("typepass: closure arity " ++ toString arity ++ ": out of range")

mutual

/-- How a type is described. A finished type has no cells; a cell is written as a
variable of its own name. -/
def Ty.witnessExpr : Ty → WitnessExpr
  | .named name args => .build name (Ty.witnessExprs args)
  | .generic name => .var name
  | .func args result =>
    .build (functionWitness args.length) (Ty.witnessExprs args ++ [result.witnessExpr])
  | .cell c => .var ⟨default, "?" ++ c.generic ++ toString c.number, true⟩

def Ty.witnessExprs : List Ty → List WitnessExpr
  | [] => []
  | t :: rest => t.witnessExpr :: Ty.witnessExprs rest

end

def Ty.finishedWitness (t : Ty) : Except String WitnessExpr :=
  match t.cells with
  | [] => .ok t.witnessExpr
  | c :: _ => .error ("typepass: witness of unresolved type " ++ (Ty.cell c).render)

namespace WitnessExpr

mutual

/-- The computation as a call of names in generated code. -/
def render : WitnessExpr → String
  | .var name => name.mangled
  | .build constructor args =>
    constructor.mangled ++ "(" ++ commaSeparated (renderAll args) ++ ")"

def renderAll : List WitnessExpr → List String
  | [] => []
  | w :: rest => w.render :: renderAll rest

end

mutual

/-- The computation as an outline; `suffix` says what each part is. -/
def outline (suffix : String) : WitnessExpr → Outline
  | .var name => .line ("Variable " ++ name.mangled ++ suffix)
  | .build constructor args =>
    .under ("CallDirect " ++ constructor.mangled ++ suffix) (outlines suffix args)

def outlines (suffix : String) : List WitnessExpr → Outline
  | [] => []
  | w :: rest => w.outline suffix ++ outlines suffix rest

end

mutual

/-- The variables of a computation from left to right. -/
def names : WitnessExpr → List Ident
  | .var name => [name]
  | .build _ args => namesAll args

def namesAll : List WitnessExpr → List Ident
  | [] => []
  | w :: rest => w.names ++ namesAll rest

end

end WitnessExpr

end WitnessLang
