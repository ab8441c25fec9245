import WitnessLang.Explicit.Tree
import WitnessLang.Layout.Frame
import WitnessLang.Source.Span

set_option autoImplicit false

namespace WitnessLang.Ir

/-- The position of a variable in the table of its function. -/
abbrev VarId := Nat

/-- How the values of a variable are copied and destroyed. -/
inductive Witness where
  /-- As plain bytes. -/
  | trivial (size : Int64)
  /-- As the type description in another variable says. -/
  | dynamic (location : VarId)
  /-- As type descriptions are. -/
  | type
  /-- Nobody has said. -/
  | unknown
  deriving DecidableEq, Repr, Inhabited

namespace Witness

def isTrivial : Witness → Bool
  | .trivial _ => true
  | _ => false

def isType : Witness → Bool
  | .type => true
  | _ => false

def location? : Witness → Option VarId
  | .dynamic v => some v
  | _ => none

end Witness

/-- A size: `static` bytes and the sizes held by variables with type descriptions. -/
structure Size where
  static : Int64 := 0
  dynamic : List VarId := []
  deriving DecidableEq, Repr, Inhabited

structure Variable where
  name : String
  type : Option Ty := none
  witness : Witness
  size : Size
  deriving Inhabited

abbrev Variables := Array Variable

/-- What happens to the variable an operand is taken from. -/
inductive Mode where
  /-- It keeps its value. -/
  | copy
  /-- It gives its value away. -/
  | move
  deriving DecidableEq, Repr, Inhabited

def Mode.word : Mode → String
  | .copy => "copy"
  | .move => "move"

structure Value where
  mode : Mode
  var : VarId
  deriving DecidableEq, Repr, Inhabited

structure CallArg where
  value : Value
  convention : Explicit.Convention
  deriving DecidableEq, Repr, Inhabited

structure PackField where
  name : String
  value : Value
  deriving DecidableEq, Repr, Inhabited

inductive Literal where
  | number (text : String) (bits : Nat)
  | bool (value : Bool)
  deriving DecidableEq, Repr, Inhabited

def Literal.text : Literal → String
  | .number text _ => text
  | .bool true => "True"
  | .bool false => "False"

inductive Instr where
  /-- Writes a constant. -/
  | set (dst : VarId) (value : Literal)
  | copy (dst src : VarId)
  /-- Hands a value over; the source is dead afterwards. -/
  | move (dst src : VarId)
  | destroy (var : VarId)
  /-- Applies an operator. -/
  | primitive (dst : VarId) (op : Option Operator) (left right : VarId)
  /-- Calls a function or a constructor of type descriptions. -/
  | callDirect (function : String) (args : List CallArg)
  | callClosure (closure : VarId) (args : List CallArg)
  /-- Makes a struct value. -/
  | pack (dst : VarId) (struct : String) (fields : List PackField)
  /-- Copies one field out of a struct value. -/
  | unpack (dst src : VarId) (field : String)
  /-- Pairs a function with its environment. -/
  | makeClosure (dst : VarId) (function : String) (env : Value)
  /-- Runs one of two blocks, both of which write the destination. -/
  | cond (dst test : VarId) (yes no : List Instr)
  deriving Inhabited

abbrev Block := List Instr

namespace Instr

def kindName : Instr → String
  | .set _ _ => "Set"
  | .copy _ _ => "Copy"
  | .move _ _ => "Move"
  | .destroy _ => "Destroy"
  | .primitive _ _ _ _ => "Primitive"
  | .callDirect _ _ => "CallDirect"
  | .callClosure _ _ => "CallClosure"
  | .pack _ _ _ => "Pack"
  | .unpack _ _ _ => "Unpack"
  | .makeClosure _ _ _ => "MakeClosure"
  | .cond _ _ _ _ => "If"

/-- The variables an instruction mentions, branches excluded. -/
def operands : Instr → List VarId
  | .set dst _ => [dst]
  | .copy dst src | .move dst src | .unpack dst src _ => [dst, src]
  | .destroy v => [v]
  | .primitive dst _ left right => [dst, left, right]
  | .callDirect _ args => args.map (·.value.var)
  | .callClosure closure args => args.map (·.value.var) ++ [closure]
  | .pack dst _ fields => dst :: fields.map (·.value.var)
  | .makeClosure dst _ env => [dst, env.var]
  | .cond dst test _ _ => [dst, test]

/-- How an operator is written; a missing one by a question mark. -/
def sign (op : Option Operator) : String :=
  match op with
  | some op => op.sign
  | none => "?"

mutual

/-- An instruction and those inside its branches, in order. -/
def flatten : Instr → List Instr
  | .cond dst test yes no => .cond dst test yes no :: (flattenAll yes ++ flattenAll no)
  | i => [i]

/-- The instructions of a block and of all branches in it, in order. -/
def flattenAll : List Instr → List Instr
  | [] => []
  | i :: rest => i.flatten ++ flattenAll rest

end

end Instr

structure Argument where
  var : VarId
  convention : Explicit.Convention
  deriving DecidableEq, Repr, Inhabited

structure Field where
  name : String
  type : Ty
  witness : Witness
  size : Size

/-- A struct with the builder of its description: after the body has run, the witnesses
of the fields are known. -/
structure Struct where
  name : String
  vars : Variables
  arguments : List Argument
  body : Block
  fields : List Field
  layout : Frame

structure Function where
  name : String
  vars : Variables
  arguments : List Argument
  locals : List VarId
  body : Block
  frame : Frame := {}
  /-- How many temporaries have been named. -/
  temporaries : Nat := 0
  span : Span := {}
  /-- Whether this is the body of a closure, whose last argument is its environment. -/
  isClosure : Bool := false
  deriving Inhabited

def Function.varAt? (f : Function) (v : VarId) : Option Variable := f.vars[v]?

structure Program where
  unit : Nat
  target : Target
  structs : List Struct
  functions : List Function

def nameOf (vs : Variables) (v : VarId) : String :=
  match vs[v]? with
  | some x => x.name
  | none => "<nil>"

def slotOf (vs : Variables) (name : String) (s : Size) : Slot :=
  ⟨name, s.static, s.dynamic.map (nameOf vs)⟩

def slotsOf (vs : Variables) (ids : List VarId) : List Slot :=
  ids.filterMap fun v => (vs[v]?).map fun x => slotOf vs x.name x.size

end WitnessLang.Ir
