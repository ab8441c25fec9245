import WitnessLang.Explicit.Tree
import WitnessLang.Layout.Frame
import WitnessLang.Surface.Tree

set_option autoImplicit false

namespace WitnessLang.Sized

inductive Witness where
  /-- As plain bytes. -/
  | trivial (size : Int64)
  /-- As a description says that is computed at run time. -/
  | dynamic (value : WitnessExpr)
  /-- As type descriptions are. -/
  | type
  deriving Inhabited

namespace Witness

def isTrivial : Witness → Bool
  | .trivial _ => true
  | _ => false

def render : Witness → String
  | .trivial size => "Trivial(" ++ toString size.toInt ++ ")"
  | .dynamic value => "Dynamic(" ++ value.render ++ ")"
  | .type => "Type"

end Witness

/-- A size: `static` bytes and the sizes held by variables with type descriptions. -/
structure Size where
  static : Int64 := 0
  dynamic : List Ident := []
  deriving Inhabited

namespace Size

def add (a b : Size) : Size := ⟨a.static + b.static, a.dynamic ++ b.dynamic⟩

def isStatic (s : Size) : Bool := s.dynamic.isEmpty

def render (s : Size) : String :=
  " + ".intercalate (toString s.static.toInt :: s.dynamic.map Ident.mangled)

end Size

structure Layout where
  witness : Witness
  size : Size
  deriving Inhabited

def Layout.render (l : Layout) : String := "[" ++ l.witness.render ++ "; " ++ l.size.render ++ "]"

structure Shape where
  type : Ty
  layout : Layout
  deriving Inhabited

structure Variable where
  name : Ident
  shape : Shape
  deriving Inhabited

mutual

inductive Expr where
  | var (shape : Shape) (name : Ident)
  | number (shape : Shape) (text : String) (bits : Nat)
  | bool (shape : Shape) (value : Bool)
  | callDirect (shape : Shape) (function : Ident) (args : List Expr)
      (witnesses : List WitnessExpr)
  | callClosure (shape : Shape) (callee : Expr) (args : List Expr)
  | primitive (shape : Shape) (op : Operator) (left right : Expr)
  | block (shape : Shape) (lets : List Let) (result : Expr)
  | pack (shape : Shape) (name : Ident) (fields : List PackField)
  | unpack (shape : Shape) (value : Expr) (field : String)
  | cond (shape : Shape) (test yes no : Expr)
  /-- A closure with the shape of its environment. -/
  | closure (shape : Shape) (params : List Variable) (generics captures : List Variable)
      (env : Ident) (envShape : Shape) (body : Expr)

structure Let where
  var : Variable
  value : Expr

structure PackField where
  name : String
  value : Expr

end

instance : Inhabited Expr := ⟨.bool default false⟩

def Expr.shape : Expr → Shape
  | .var s _ | .number s _ _ | .bool s _ | .callDirect s _ _ _ | .callClosure s _ _
  | .primitive s _ _ _ | .block s _ _ | .pack s _ _ | .unpack s _ _ | .cond s _ _ _
  | .closure s _ _ _ _ _ _ => s

structure Field where
  name : String
  shape : Shape

/-- A struct with its type parameters as variables, and its fields in terms of them. -/
structure Struct where
  span : Span
  name : Ident
  arguments : List Variable
  fields : List Field

structure Instance where
  struct : Ident
  args : List Ty
  layout : Layout

def Instance.type (i : Instance) : Ty := .named i.struct i.args

structure Argument where
  var : Variable
  convention : Explicit.Convention

structure Function where
  span : Span
  name : Ident
  arguments : List Argument
  body : Expr

/-- The definitions of a file, laid out for a machine. -/
structure Program where
  unit : Nat
  target : Target
  structs : List Struct
  functions : List Function
  /-- The applied structs, in the order in which their layouts were finished. -/
  instances : List Instance

def Program.withoutStructs (p : Program) (names : List String) : Program :=
  { p with structs := p.structs.filter fun s => !names.contains s.name.name }

def Variable.render (v : Variable) : String :=
  v.name.mangled ++ ": " ++ v.shape.type.render ++ " " ++ v.shape.layout.render

mutual

/-- An expression as an outline; `witness` is what is written after the computation of a
type description. -/
def Expr.outline (witness : String) (e : Expr) : Outline :=
  let suffix := " " ++ e.shape.layout.render
  match e with
  | .var _ name => .line ("Variable " ++ name.mangled ++ suffix)
  | .number _ text _ => .line ("Literal " ++ text ++ suffix)
  | .bool _ value => .line ("Literal " ++ Surface.boolText value ++ suffix)
  | .callDirect _ function args witnesses =>
    .under ("CallDirect " ++ function.mangled ++ suffix)
      (Expr.outlines witness args ++ WitnessExpr.outlines witness witnesses)
  | .callClosure _ callee args =>
    .under ("CallClosure" ++ suffix) (callee.outline witness ++ Expr.outlines witness args)
  | .primitive _ op left right =>
    .under ("Primitive " ++ op.sign ++ suffix) (left.outline witness ++ right.outline witness)
  | .block _ lets result =>
    .under ("Block" ++ suffix) (Expr.letOutlines witness lets ++ result.outline witness)
  | .pack _ name fields =>
    .under ("Pack " ++ name.mangled ++ suffix) (Expr.fieldOutlines witness fields)
  | .unpack _ value field => .under ("Unpack ." ++ field ++ suffix) (value.outline witness)
  | .cond _ test yes no =>
    .under ("If" ++ suffix)
      (test.outline witness ++ yes.outline witness ++ no.outline witness)
  | .closure _ _ generics captures env _ body =>
    let taken := (generics ++ captures).map (·.name.mangled)
    .under ("Closure env " ++ env.mangled ++ " [" ++ commaSeparated taken ++ "]" ++ suffix)
      (body.outline witness)

def Expr.outlines (witness : String) : List Expr → Outline
  | [] => []
  | e :: rest => e.outline witness ++ Expr.outlines witness rest

def Expr.fieldOutlines (witness : String) : List PackField → Outline
  | [] => []
  | ⟨name, value⟩ :: rest =>
    .under (name ++ ":") (value.outline witness) ++ Expr.fieldOutlines witness rest

def Expr.letOutlines (witness : String) : List Let → Outline
  | [] => []
  | ⟨v, value⟩ :: rest =>
    .under ("let " ++ v.render ++ " =") (value.outline witness) ++ Expr.letOutlines witness rest

end

def Struct.outline (s : Struct) : Outline :=
  .under ("struct " ++ s.name.mangled ++ "("
      ++ commaSeparated (s.arguments.map (·.name.mangled)) ++ ")")
    (s.fields.flatMap fun f =>
      Outline.line (f.name ++ ": " ++ f.shape.type.render ++ " " ++ f.shape.layout.render))

def Function.outline (witness : String) (f : Function) : Outline :=
  let args := f.arguments.map fun a => a.convention.word ++ " " ++ a.var.render
  .under ("func " ++ f.name.mangled ++ "(" ++ commaSeparated args ++ ") =")
    (f.body.outline witness)

def Program.render (p : Program) : String :=
  let witness := " " ++ (Layout.mk .type ⟨p.target.witnessSize, []⟩).render
  Outline.render (p.structs.flatMap Struct.outline
    ++ p.functions.flatMap (Function.outline witness))

end WitnessLang.Sized
