import WitnessLang.Source.Span
import WitnessLang.Text.Outline

set_option autoImplicit false

namespace WitnessLang

inductive Operator where
  | add | sub | mul | less
  deriving DecidableEq, Repr, Inhabited

def Operator.sign : Operator → String
  | .add => "+"
  | .sub => "-"
  | .mul => "*"
  | .less => "<"

namespace Surface

inductive TypeExpr where
  /-- A name on its own. -/
  | named (span : Span) (name : String)
  /-- A name with arguments. -/
  | apply (span : Span) (name : String) (args : List TypeExpr)
  /-- A function type. -/
  | func (span : Span) (args : List TypeExpr) (result : TypeExpr)
  deriving Inhabited, Repr

def TypeExpr.span : TypeExpr → Span
  | .named s _ | .apply s _ _ | .func s _ _ => s

mutual

/-- A binding form that always matches: a name, or a struct taken apart. -/
inductive Pattern where
  | var (span : Span) (name : String)
  | record (span : Span) (name : String) (fields : List FieldPattern)

structure FieldPattern where
  span : Span
  name : String
  pattern : Pattern

end

instance : Inhabited Pattern := ⟨.var {} ""⟩

def Pattern.span : Pattern → Span
  | .var s _ | .record s _ _ => s

structure Param where
  span : Span
  pattern : Pattern
  type : TypeExpr

mutual

inductive Expr where
  /-- A number: as it was written, and the bits of its value. -/
  | number (span : Span) (text : String) (bits : Nat)
  | bool (span : Span) (value : Bool)
  | var (span : Span) (name : String)
  | call (span : Span) (callee : Expr) (args : List Expr)
  | operation (span : Span) (op : Operator) (left right : Expr)
  | record (span : Span) (name : String) (nameSpan : Span) (fields : List FieldInit)
  | block (span : Span) (lets : List Let) (result : Expr)
  | annotated (span : Span) (value : Expr) (type : TypeExpr)
  | case (span : Span) (scrutinee : Expr) (arms : List Arm)
  | cond (span : Span) (test yes no : Expr)
  | closure (span : Span) (params : List Param) (body : Expr)

/-- The value given to a field of a struct; the span is that of the field's name. -/
structure FieldInit where
  span : Span
  name : String
  value : Expr

structure Let where
  span : Span
  pattern : Pattern
  value : Expr

structure Arm where
  span : Span
  pattern : Pattern
  body : Expr

end

instance : Inhabited Expr := ⟨.bool {} false⟩

def Expr.span : Expr → Span
  | .number s _ _ | .bool s _ | .var s _ | .call s _ _ | .operation s _ _ _ | .record s _ _ _
  | .block s _ _ | .annotated s _ _ | .case s _ _ | .cond s _ _ _ | .closure s _ _ => s

def Expr.kindName : Expr → String
  | .number .. | .bool .. => "Literal"
  | .var .. => "Variable"
  | .call .. => "Call"
  | .operation .. => "Operation"
  | .record .. => "StructLiteral"
  | .block .. => "Block"
  | .annotated .. => "Annotated"
  | .case .. => "Case"
  | .cond .. => "If"
  | .closure .. => "Closure"

def boolText (b : Bool) : String := if b then "True" else "False"

structure Generic where
  span : Span
  name : String

/-- A field of a struct definition; the span is that of the field's name. -/
structure Field where
  span : Span
  name : String
  type : TypeExpr

structure Function where
  span : Span
  name : String
  nameSpan : Span
  generics : List Generic
  params : List Param
  result : TypeExpr
  body : Expr

structure Struct where
  span : Span
  name : String
  nameSpan : Span
  generics : List Generic
  fields : List Field

inductive Item where
  | func (f : Function)
  | struct (s : Struct)

def Item.span : Item → Span
  | .func f => f.span
  | .struct s => s.span

structure File where
  span : Span
  items : List Item

end Surface

end WitnessLang

namespace WitnessLang.Surface

mutual

def TypeExpr.render : TypeExpr → String
  | .named _ name => name
  | .apply _ name args => name ++ "[" ++ commaSeparated (TypeExpr.renderAll args) ++ "]"
  | .func _ args result =>
    "(" ++ commaSeparated (TypeExpr.renderAll args) ++ ") -> " ++ result.render

def TypeExpr.renderAll : List TypeExpr → List String
  | [] => []
  | t :: rest => t.render :: TypeExpr.renderAll rest

end

mutual

def Pattern.render : Pattern → String
  | .var _ name => name
  | .record _ name fields => name ++ " \x7b " ++ commaSeparated (Pattern.renderFields fields) ++ " \x7d"

def Pattern.renderFields : List FieldPattern → List String
  | [] => []
  | ⟨_, name, p⟩ :: rest => (name ++ ": " ++ p.render) :: Pattern.renderFields rest

end

def Param.render (p : Param) : String := "param " ++ p.pattern.render ++ ": " ++ p.type.render

mutual

def Expr.outline : Expr → Outline
  | .number _ text _ => .line ("Literal " ++ text)
  | .bool _ value => .line ("Literal " ++ boolText value)
  | .var _ name => .line ("Variable " ++ name)
  | .call _ callee args => .under "Call" (callee.outline ++ Expr.outlines args)
  | .operation _ op left right => .under ("Operation " ++ op.sign) (left.outline ++ right.outline)
  | .record _ name _ fields => .under ("StructLiteral " ++ name) (Expr.fieldOutlines fields)
  | .block _ lets result => .under "Block" (Expr.letOutlines lets ++ result.outline)
  | .annotated _ value type => .under ("Annotated " ++ type.render) value.outline
  | .case _ scrutinee arms => .under "Case" (scrutinee.outline ++ Expr.armOutlines arms)
  | .cond _ test yes no => .under "If" (test.outline ++ yes.outline ++ no.outline)
  | .closure _ params body =>
    .under "Closure" (params.flatMap (fun p => Outline.line p.render) ++ body.outline)

def Expr.outlines : List Expr → Outline
  | [] => []
  | e :: rest => e.outline ++ Expr.outlines rest

def Expr.fieldOutlines : List FieldInit → Outline
  | [] => []
  | ⟨_, name, value⟩ :: rest => .under (name ++ ":") value.outline ++ Expr.fieldOutlines rest

def Expr.letOutlines : List Let → Outline
  | [] => []
  | ⟨_, p, value⟩ :: rest =>
    .under ("let " ++ p.render ++ " =") value.outline ++ Expr.letOutlines rest

def Expr.armOutlines : List Arm → Outline
  | [] => []
  | ⟨_, p, body⟩ :: rest => .under (p.render ++ " =>") body.outline ++ Expr.armOutlines rest

end

def renderGenerics (gs : List Generic) : String :=
  if gs.isEmpty then "" else "[" ++ commaSeparated (gs.map (·.name)) ++ "]"

def Item.outline : Item → Outline
  | .func f =>
    .under ("func " ++ f.name ++ renderGenerics f.generics ++ ": " ++ f.result.render)
      (f.params.flatMap (fun p => Outline.line p.render) ++ f.body.outline)
  | .struct s =>
    .under ("struct " ++ s.name ++ renderGenerics s.generics)
      (s.fields.flatMap fun x => Outline.line ("field " ++ x.name ++ ": " ++ x.type.render))

def File.render (f : File) : String := Outline.render (f.items.flatMap Item.outline)

end WitnessLang.Surface
