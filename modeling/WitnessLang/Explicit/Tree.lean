import WitnessLang.Surface.Tree
import WitnessLang.Types.Witness

set_option autoImplicit false

namespace WitnessLang.Explicit

inductive Convention where
  /-- Read only. -/
  | borrowed
  /-- Read and written. -/
  | shared
  /-- Written only. -/
  | out
  deriving DecidableEq, Repr, Inhabited

def Convention.word : Convention → String
  | .borrowed => "in"
  | .shared => "inout"
  | .out => "out"

structure Argument where
  name : Ident
  type : Ty
  convention : Convention

structure Capture where
  name : Ident
  type : Ty

mutual

/-- An expression. Where the type follows from the parts it is not kept. -/
inductive Expr where
  | var (span : Span) (type : Ty) (name : Ident)
  | number (span : Span) (text : String) (bits : Nat)
  | bool (span : Span) (value : Bool)
  /-- A call of a definition, with a description for each of its type parameters. -/
  | callDirect (span : Span) (type : Ty) (function : Ident) (args : List Expr)
      (witnesses : List WitnessExpr)
  | callClosure (span : Span) (type : Ty) (callee : Expr) (args : List Expr)
  | primitive (span : Span) (op : Operator) (left right : Expr)
  | block (span : Span) (lets : List Let) (result : Expr)
  /-- Makes a struct value, its fields in the order of the declaration. -/
  | pack (span : Span) (name : Ident) (args : List Ty) (fields : List PackField)
  /-- Takes one field out of a struct value. -/
  | unpack (span : Span) (type : Ty) (value : Expr) (field : String)
  | cond (span : Span) (test yes no : Expr)
  /-- A closure keeps the type parameters it needs, then the variables it reads, in a
  struct of its own. -/
  | closure (span : Span) (params : List Argument) (generics : List Ident)
      (captures : List Capture) (env : Ident) (body : Expr)

structure Let where
  name : Ident
  type : Ty
  value : Expr

structure PackField where
  name : String
  value : Expr

end

instance : Inhabited Expr := ⟨.bool {} false⟩

namespace Expr

def span : Expr → Span
  | .var s _ _ | .number s _ _ | .bool s _ | .callDirect s _ _ _ _ | .callClosure s _ _ _
  | .primitive s _ _ _ | .block s _ _ | .pack s _ _ _ | .unpack s _ _ _ | .cond s _ _ _
  | .closure s _ _ _ _ _ => s

/-- The type of an operation: comparing gives a truth value. -/
def primitiveType (op : Operator) : Ty := if op = .less then Ty.bool else Ty.float

def type : Expr → Ty
  | .var _ t _ | .callDirect _ t _ _ _ | .callClosure _ t _ _ | .unpack _ t _ _ => t
  | .number _ _ _ => Ty.float
  | .bool _ _ => Ty.bool
  | .primitive _ op _ _ => primitiveType op
  | .block _ _ result => result.type
  | .pack _ name args _ => .named name args
  | .cond _ _ yes _ => yes.type
  | .closure _ params _ _ _ body => .func (params.map (·.type)) body.type

end Expr

structure Field where
  name : String
  type : Ty

/-- A struct of the program, or the struct that a closure keeps its variables in. -/
structure Struct where
  span : Span
  name : Ident
  generics : List Ident
  fields : List Field

/-- How the description of a struct is built: from the descriptions of its type
parameters, one description for each field. -/
structure Builder where
  name : Ident
  arguments : List Ident
  fields : List WitnessExpr

/-- A function. Its arguments are the result, the parameters, and a description for each
type parameter. -/
structure Function where
  span : Span
  name : Ident
  arguments : List Argument
  body : Expr

/-- The definitions of a file, closure environments included. -/
structure Program where
  unit : Nat
  structs : List Struct
  builders : List Builder
  functions : List Function

/-- The builder of a struct. The last one hides the others. -/
def Program.builder? (p : Program) (tag : Tag) : Option Builder :=
  p.builders.reverse.find? fun b => b.name.tag == tag

def Program.without (p : Program) (names : List String) : Program :=
  { p with
    structs := p.structs.filter fun s => !names.contains s.name.name
    functions := p.functions.filter fun f => !names.contains f.name.name }

def Program.withoutBuilders (p : Program) (names : List String) : Program :=
  { p with builders := p.builders.filter fun b => !names.contains b.name.name }

/-- What is written after a computation of a type description. -/
def witnessSuffix : String := " : " ++ Ty.witness.render

mutual

def Expr.outline : Expr → Outline
  | .var _ type name => .line ("Variable " ++ name.mangled ++ " : " ++ type.render)
  | .number _ text _ => .line ("Literal " ++ text)
  | .bool _ value => .line ("Literal " ++ Surface.boolText value)
  | .callDirect _ type function args witnesses =>
    .under ("CallDirect " ++ function.mangled ++ " : " ++ type.render)
      (Expr.outlines args ++ WitnessExpr.outlines witnessSuffix witnesses)
  | .callClosure _ type callee args =>
    .under ("CallClosure : " ++ type.render) (callee.outline ++ Expr.outlines args)
  | .primitive _ op left right =>
    .under ("Primitive " ++ op.sign) (left.outline ++ right.outline)
  | .block _ lets result => .under "Block" (Expr.letOutlines lets ++ result.outline)
  | .pack _ name args fields =>
    .under ("Pack " ++ (Ty.named name args).render) (Expr.fieldOutlines fields)
  | .unpack _ type value field =>
    .under ("Unpack ." ++ field ++ " : " ++ type.render) value.outline
  | .cond _ test yes no => .under "If" (test.outline ++ yes.outline ++ no.outline)
  | .closure _ params generics captures env body =>
    let params := params.map fun a => a.name.mangled ++ ": " ++ a.type.render
    let taken := generics.map Ident.mangled ++ captures.map (·.name.mangled)
    .under ("Closure |" ++ commaSeparated params ++ "| env " ++ env.mangled ++ " ["
      ++ commaSeparated taken ++ "]") body.outline

def Expr.outlines : List Expr → Outline
  | [] => []
  | e :: rest => e.outline ++ Expr.outlines rest

def Expr.fieldOutlines : List PackField → Outline
  | [] => []
  | ⟨name, value⟩ :: rest => .under (name ++ ":") value.outline ++ Expr.fieldOutlines rest

def Expr.letOutlines : List Let → Outline
  | [] => []
  | ⟨name, type, value⟩ :: rest =>
    .under ("let " ++ name.mangled ++ ": " ++ type.render ++ " =") value.outline
      ++ Expr.letOutlines rest

end

def Builder.outline (b : Builder) : Outline :=
  .under ("builder(" ++ commaSeparated (b.arguments.map Ident.mangled) ++ ")")
    (WitnessExpr.outlines witnessSuffix b.fields)

/-- A struct and, below it, its builder if there is one. -/
def Struct.outline (s : Struct) (builder : Option Builder) : Outline :=
  let fields := s.fields.map fun f => f.name ++ ": " ++ f.type.render
  .under ("struct " ++ s.name.mangled ++ " \x7b " ++ commaSeparated fields ++ " \x7d")
    (match builder with
      | some b => b.outline
      | none => [])

def Function.outline (f : Function) : Outline :=
  let args := f.arguments.map fun a =>
    a.convention.word ++ " " ++ a.name.mangled ++ ": " ++ a.type.render
  .under ("func " ++ f.name.mangled ++ "(" ++ commaSeparated args ++ ") =") f.body.outline

def Program.render (p : Program) : String :=
  Outline.render ((p.structs.flatMap fun s => s.outline (p.builder? s.name.tag))
    ++ p.functions.flatMap Function.outline)

end WitnessLang.Explicit
