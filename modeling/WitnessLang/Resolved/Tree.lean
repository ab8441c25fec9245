import WitnessLang.Scope.Tag
import WitnessLang.Surface.Tree
import WitnessLang.Text.Outline

set_option autoImplicit false

namespace WitnessLang.Resolved

inductive TypeExpr where
  /-- A built-in type or a struct, perhaps applied to arguments. -/
  | named (span : Span) (name : Ident) (args : List TypeExpr)
  /-- A type parameter; arguments after it are a mistake that is found later. -/
  | generic (span : Span) (name : Ident) (args : List TypeExpr)
  | func (span : Span) (args : List TypeExpr) (result : TypeExpr)
  deriving Inhabited, Repr

def TypeExpr.span : TypeExpr → Span
  | .named s _ _ | .generic s _ _ | .func s _ _ => s

mutual

inductive Pattern where
  | var (span : Span) (name : Ident)
  | record (span : Span) (name : Ident) (fields : List FieldPattern)

structure FieldPattern where
  span : Span
  name : String
  pattern : Pattern

end

instance : Inhabited Pattern := ⟨.var {} default⟩

def Pattern.span : Pattern → Span
  | .var s _ | .record s _ _ => s

structure Param where
  span : Span
  pattern : Pattern
  type : TypeExpr

mutual

inductive Expr where
  | number (span : Span) (text : String) (bits : Nat)
  | bool (span : Span) (value : Bool)
  | var (span : Span) (name : Ident)
  | call (span : Span) (callee : Expr) (args : List Expr)
  | operation (span : Span) (op : Operator) (left right : Expr)
  | record (span : Span) (name : Ident) (fields : List FieldInit)
  | block (span : Span) (lets : List Let) (result : Expr)
  | annotated (span : Span) (value : Expr) (type : TypeExpr)
  | case (span : Span) (scrutinee : Expr) (arms : List Arm)
  | cond (span : Span) (test yes no : Expr)
  | closure (span : Span) (params : List Param) (body : Expr)

structure FieldInit where
  span : Span
  name : String
  value : Expr

structure Let where
  span : Span
  pattern : Pattern
  value : Expr

structure Arm where
  span : Span
  pattern : Pattern
  body : Expr

end

instance : Inhabited Expr := ⟨.bool {} false⟩

def Expr.span : Expr → Span
  | .number s _ _ | .bool s _ | .var s _ | .call s _ _ | .operation s _ _ _ | .record s _ _
  | .block s _ _ | .annotated s _ _ | .case s _ _ | .cond s _ _ _ | .closure s _ _ => s

structure Field where
  span : Span
  name : Ident
  type : TypeExpr

structure Struct where
  span : Span
  name : Ident
  generics : List Ident
  fields : List Field

structure Function where
  span : Span
  name : Ident
  generics : List Ident
  params : List Param
  result : TypeExpr
  body : Expr

/-- The definitions of a file: structs in order, then functions in order. -/
structure Program where
  unit : Nat
  structs : List Struct
  functions : List Function

def Program.without (p : Program) (names : List String) : Program :=
  { p with
    structs := p.structs.filter fun s => !names.contains s.name.name
    functions := p.functions.filter fun f => !names.contains f.name.name }

mutual

def TypeExpr.render : TypeExpr → String
  | .named _ name args | .generic _ name args =>
    if args.isEmpty then name.mangled
    else name.mangled ++ "[" ++ commaSeparated (TypeExpr.renderAll args) ++ "]"
  | .func _ args result =>
    "(" ++ commaSeparated (TypeExpr.renderAll args) ++ ") -> " ++ result.render

def TypeExpr.renderAll : List TypeExpr → List String
  | [] => []
  | t :: rest => t.render :: TypeExpr.renderAll rest

end

mutual

def Pattern.render : Pattern → String
  | .var _ name => name.mangled
  | .record _ name fields =>
    name.mangled ++ " \x7b " ++ commaSeparated (Pattern.renderFields fields) ++ " \x7d"

def Pattern.renderFields : List FieldPattern → List String
  | [] => []
  | ⟨_, name, p⟩ :: rest => (name ++ ": " ++ p.render) :: Pattern.renderFields rest

end

def Param.render (p : Param) : String := p.pattern.render ++ ": " ++ p.type.render

def renderParams (ps : List Param) : String := commaSeparated (ps.map Param.render)

mutual

def Expr.outline : Expr → Outline
  | .number _ text _ => .line ("Literal " ++ text)
  | .bool _ value => .line ("Literal " ++ Surface.boolText value)
  | .var _ name => .line ("Variable " ++ name.mangled)
  | .call _ callee args => .under "Call" (callee.outline ++ Expr.outlines args)
  | .operation _ op left right => .under ("Operation " ++ op.sign) (left.outline ++ right.outline)
  | .record _ name fields => .under ("StructLiteral " ++ name.mangled) (Expr.fieldOutlines fields)
  | .block _ lets result => .under "Block" (Expr.letOutlines lets ++ result.outline)
  | .annotated _ value type => .under ("Annotated " ++ type.render) value.outline
  | .case _ scrutinee arms => .under "Case" (scrutinee.outline ++ Expr.armOutlines arms)
  | .cond _ test yes no => .under "If" (test.outline ++ yes.outline ++ no.outline)
  | .closure _ params body => .under ("Closure |" ++ renderParams params ++ "|") body.outline

def Expr.outlines : List Expr → Outline
  | [] => []
  | e :: rest => e.outline ++ Expr.outlines rest

def Expr.fieldOutlines : List FieldInit → Outline
  | [] => []
  | ⟨_, name, value⟩ :: rest => .under (name ++ ":") value.outline ++ Expr.fieldOutlines rest

def Expr.letOutlines : List Let → Outline
  | [] => []
  | ⟨_, p, value⟩ :: rest =>
    .under ("let " ++ p.render ++ " =") value.outline ++ Expr.letOutlines rest

def Expr.armOutlines : List Arm → Outline
  | [] => []
  | ⟨_, p, body⟩ :: rest => .under (p.render ++ " =>") body.outline ++ Expr.armOutlines rest

end

def renderIdents (ids : List Ident) : String :=
  if ids.isEmpty then "" else "[" ++ commaSeparated (ids.map Ident.mangled) ++ "]"

def Struct.outline (s : Struct) : Outline :=
  .under ("struct " ++ s.name.mangled ++ renderIdents s.generics ++ " \x7b")
    (s.fields.flatMap fun f => Outline.line (f.name.name ++ ": " ++ f.type.render))
  ++ .line "\x7d"

def Function.outline (f : Function) : Outline :=
  .under ("func " ++ f.name.mangled ++ renderIdents f.generics ++ "(" ++ renderParams f.params
    ++ "): " ++ f.result.render ++ " =") f.body.outline

def Program.render (p : Program) : String :=
  Outline.render (p.structs.flatMap Struct.outline ++ p.functions.flatMap Function.outline)

end WitnessLang.Resolved
