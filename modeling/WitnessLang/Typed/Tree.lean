import WitnessLang.Surface.Tree
import WitnessLang.Text.Outline
import WitnessLang.Types.Basic

set_option autoImplicit false

namespace WitnessLang.Typed

mutual

inductive Pattern where
  | var (span : Span) (name : Ident) (type : Ty)
  /-- Fields stand in the order of the struct's declaration. -/
  | record (span : Span) (name : Ident) (type : Ty) (fields : List FieldPattern)

structure FieldPattern where
  name : String
  pattern : Pattern

end

instance : Inhabited Pattern := ⟨.var {} default default⟩

namespace Pattern

def span : Pattern → Span
  | .var s _ _ | .record s _ _ _ => s

def type : Pattern → Ty
  | .var _ _ t | .record _ _ t _ => t

mutual

/-- The variables a pattern binds, from left to right. -/
def names : Pattern → List Ident
  | .var _ name _ => [name]
  | .record _ _ _ fields => fieldNames fields

def fieldNames : List FieldPattern → List Ident
  | [] => []
  | ⟨_, p⟩ :: rest => p.names ++ fieldNames rest

end

mutual

def mapTypes (f : Ty → Ty) : Pattern → Pattern
  | .var s name t => .var s name (f t)
  | .record s name t fields => .record s name (f t) (mapFieldTypes f fields)

def mapFieldTypes (f : Ty → Ty) : List FieldPattern → List FieldPattern
  | [] => []
  | ⟨name, p⟩ :: rest => ⟨name, p.mapTypes f⟩ :: mapFieldTypes f rest

end

mutual

def types : Pattern → List Ty
  | .var _ _ t => [t]
  | .record _ _ t fields => t :: fieldTypes fields

def fieldTypes : List FieldPattern → List Ty
  | [] => []
  | ⟨_, p⟩ :: rest => p.types ++ fieldTypes rest

end

end Pattern

structure Param where
  pattern : Pattern
  type : Ty

/-- A variable of an enclosing scope that a closure reads. -/
structure Capture where
  name : Ident
  type : Ty

mutual

/-- An expression. Where the type follows from the parts it is not kept. -/
inductive Expr where
  | number (span : Span) (text : String) (bits : Nat)
  | bool (span : Span) (value : Bool)
  | var (span : Span) (name : Ident) (type : Ty)
  /-- A call of a definition; the types stand for its type parameters. -/
  | callDirect (span : Span) (type : Ty) (function : Ident) (generics : List Ty)
      (args : List Expr)
  /-- A call of a value. -/
  | callClosure (span : Span) (type : Ty) (callee : Expr) (args : List Expr)
  | operation (span : Span) (op : Operator) (left right : Expr)
  /-- A struct value, its fields in the order of the declaration. -/
  | record (span : Span) (name : Ident) (args : List Ty) (fields : List FieldInit)
  | block (span : Span) (lets : List Let) (result : Expr)
  | cond (span : Span) (test yes no : Expr)
  | closure (span : Span) (params : List Param) (captures : List Capture) (body : Expr)

structure FieldInit where
  name : String
  value : Expr

structure Let where
  pattern : Pattern
  value : Expr

end

instance : Inhabited Expr := ⟨.bool {} false⟩

/-- The type of an operation: comparing gives a truth value. -/
def operationType (op : Operator) : Ty := if op = .less then Ty.bool else Ty.float

namespace Expr

def span : Expr → Span
  | .number s _ _ | .bool s _ | .var s _ _ | .callDirect s _ _ _ _ | .callClosure s _ _ _
  | .operation s _ _ _ | .record s _ _ _ | .block s _ _ | .cond s _ _ _ | .closure s _ _ _ => s

def type : Expr → Ty
  | .number _ _ _ => Ty.float
  | .bool _ _ => Ty.bool
  | .var _ _ t | .callDirect _ t _ _ _ | .callClosure _ t _ _ => t
  | .operation _ op _ _ => operationType op
  | .record _ name args _ => .named name args
  | .block _ _ result => result.type
  | .cond _ _ yes _ => yes.type
  | .closure _ params _ body => .func (params.map (·.type)) body.type

mutual

def mapTypes (f : Ty → Ty) : Expr → Expr
  | .number s text bits => .number s text bits
  | .bool s value => .bool s value
  | .var s name t => .var s name (f t)
  | .callDirect s t function generics args =>
    .callDirect s (f t) function (generics.map f) (mapTypesAll f args)
  | .callClosure s t callee args => .callClosure s (f t) (callee.mapTypes f) (mapTypesAll f args)
  | .operation s op left right => .operation s op (left.mapTypes f) (right.mapTypes f)
  | .record s name args fields => .record s name (args.map f) (mapFieldTypes f fields)
  | .block s lets result => .block s (mapLetTypes f lets) (result.mapTypes f)
  | .cond s test yes no => .cond s (test.mapTypes f) (yes.mapTypes f) (no.mapTypes f)
  | .closure s params captures body =>
    .closure s (params.map fun p => ⟨p.pattern.mapTypes f, f p.type⟩)
      (captures.map fun c => ⟨c.name, f c.type⟩) (body.mapTypes f)

def mapTypesAll (f : Ty → Ty) : List Expr → List Expr
  | [] => []
  | e :: rest => e.mapTypes f :: mapTypesAll f rest

def mapFieldTypes (f : Ty → Ty) : List FieldInit → List FieldInit
  | [] => []
  | ⟨name, value⟩ :: rest => ⟨name, value.mapTypes f⟩ :: mapFieldTypes f rest

def mapLetTypes (f : Ty → Ty) : List Let → List Let
  | [] => []
  | ⟨p, value⟩ :: rest => ⟨p.mapTypes f, value.mapTypes f⟩ :: mapLetTypes f rest

end

mutual

/-- The types of an expression and of all its parts, from the outside in. -/
def types (e : Expr) : List Ty :=
  e.type :: match e with
    | .number _ _ _ | .bool _ _ | .var _ _ _ => []
    | .callDirect _ _ _ generics args => generics ++ typesAll args
    | .callClosure _ _ callee args => callee.types ++ typesAll args
    | .operation _ _ left right => left.types ++ right.types
    | .record _ _ args fields => args ++ fieldTypes fields
    | .block _ lets result => letTypes lets ++ result.types
    | .cond _ test yes no => test.types ++ yes.types ++ no.types
    | .closure _ params captures body =>
      params.flatMap (fun p => p.type :: p.pattern.types) ++ captures.map (·.type) ++ body.types

def typesAll : List Expr → List Ty
  | [] => []
  | e :: rest => e.types ++ typesAll rest

def fieldTypes : List FieldInit → List Ty
  | [] => []
  | ⟨_, value⟩ :: rest => value.types ++ fieldTypes rest

def letTypes : List Let → List Ty
  | [] => []
  | ⟨p, value⟩ :: rest => p.types ++ value.types ++ letTypes rest

end

end Expr

structure Field where
  name : String
  type : Ty

structure Struct where
  span : Span
  name : Ident
  generics : List Ident
  fields : List Field

structure Function where
  span : Span
  name : Ident
  generics : List Ident
  params : List Param
  result : Ty
  body : Expr

/-- The definitions of a file: structs in order, then functions in order. -/
structure Program where
  unit : Nat
  structs : List Struct
  functions : List Function

def Program.without (p : Program) (names : List String) : Program :=
  { p with
    structs := p.structs.filter fun s => !names.contains s.name.name
    functions := p.functions.filter fun f => !names.contains f.name.name }

mutual

def Pattern.render : Pattern → String
  | .var _ name _ => name.mangled
  | .record _ name _ fields =>
    name.name ++ " \x7b " ++ commaSeparated (Pattern.renderFields fields) ++ " \x7d"

def Pattern.renderFields : List FieldPattern → List String
  | [] => []
  | ⟨name, p⟩ :: rest => (name ++ ": " ++ p.render) :: Pattern.renderFields rest

end

def bracketed (texts : List String) : String :=
  if texts.isEmpty then "" else "[" ++ commaSeparated texts ++ "]"

def Param.render (p : Param) : String := p.pattern.render ++ ": " ++ p.type.render

mutual

def Expr.outline (e : Expr) : Outline :=
  let suffix := " : " ++ e.type.render
  match e with
  | .number _ text _ => .line ("Literal " ++ text ++ suffix)
  | .bool _ value => .line ("Literal " ++ Surface.boolText value ++ suffix)
  | .var _ name _ => .line ("Variable " ++ name.mangled ++ suffix)
  | .callDirect _ _ function generics args =>
    .under ("CallDirect " ++ function.name ++ bracketed (generics.map Ty.render) ++ suffix)
      (Expr.outlines args)
  | .callClosure _ _ callee args =>
    .under ("CallClosure" ++ suffix) (callee.outline ++ Expr.outlines args)
  | .operation _ op left right =>
    .under ("Operation " ++ op.sign ++ suffix) (left.outline ++ right.outline)
  | .record _ name args fields =>
    .under ("StructLiteral " ++ name.name ++ bracketed (args.map Ty.render) ++ suffix)
      (Expr.fieldOutlines fields)
  | .block _ lets result => .under ("Block" ++ suffix) (Expr.letOutlines lets ++ result.outline)
  | .cond _ test yes no =>
    .under ("If" ++ suffix) (test.outline ++ yes.outline ++ no.outline)
  | .closure _ _ captures body =>
    .under ("Closure [" ++ commaSeparated (captures.map (·.name.mangled)) ++ "]" ++ suffix)
      body.outline

def Expr.outlines : List Expr → Outline
  | [] => []
  | e :: rest => e.outline ++ Expr.outlines rest

def Expr.fieldOutlines : List FieldInit → Outline
  | [] => []
  | ⟨name, value⟩ :: rest => .under (name ++ ":") value.outline ++ Expr.fieldOutlines rest

def Expr.letOutlines : List Let → Outline
  | [] => []
  | ⟨p, value⟩ :: rest =>
    .under ("let " ++ p.render ++ " =") value.outline ++ Expr.letOutlines rest

end

def Struct.outline (s : Struct) : Outline :=
  .under ("struct " ++ s.name.mangled ++ bracketed (s.generics.map (·.name)) ++ " \x7b")
    (s.fields.flatMap fun f => Outline.line (f.name ++ ": " ++ f.type.render))
  ++ .line "\x7d"

def Function.outline (f : Function) : Outline :=
  .under ("func " ++ f.name.mangled ++ bracketed (f.generics.map (·.name)) ++ "("
    ++ commaSeparated (f.params.map Param.render) ++ "): " ++ f.result.render ++ " =")
    f.body.outline

def Program.render (p : Program) : String :=
  Outline.render (p.structs.flatMap Struct.outline ++ p.functions.flatMap Function.outline)

end WitnessLang.Typed
