import WitnessLang.Explicit.Tree
import WitnessLang.Typed.Tree

set_option autoImplicit false

/-! Making type arguments explicit. The structs of the program come first; the
environment of each closure follows in the order in which closures are met. -/
namespace WitnessLang.Explicit

structure Supply where
  tags : TagSource := ⟨Tag.syntheticUnit, 0⟩
  /-- How many temporaries there are. -/
  temporaries : Nat := 0
  /-- How many closure environments there are. -/
  environments : Nat := 0
  structs : List Struct := []
  builders : List Builder := []

abbrev Pass := StateM Supply

def synthetic (name : String) : Pass Ident := do
  let (id, tags) := (← get).tags.synthetic name
  modify fun s => { s with tags := tags }
  return id

def temporary : Pass Ident := do
  let n := (← get).temporaries
  let id ← synthetic ("_p" ++ toString n)
  modify fun s => { s with temporaries := n + 1 }
  return id

def builderOf (s : Struct) : Builder :=
  ⟨s.name, s.generics, s.fields.map fun f => f.type.witnessExpr⟩

def addStruct (s : Struct) : Pass Unit :=
  modify fun p => { p with structs := p.structs ++ [s], builders := p.builders ++ [builderOf s] }

mutual

/-- The bindings that take a struct value apart as a pattern says. -/
def unpackFields (span : Span) (type : Ty) (source : Ident) :
    List Typed.FieldPattern → Pass (List Let)
  | [] => return []
  | ⟨name, p⟩ :: rest => do
    let value := Expr.unpack p.span p.type (.var span type source) name
    let lets ← bindValue p value
    return lets ++ (← unpackFields span type source rest)

/-- The bindings that give a value to the variables of a pattern. -/
def bindValue : Typed.Pattern → Expr → Pass (List Let)
  | .var _ name type, value => return [⟨name, type, value⟩]
  | .record span _ type fields, value => do
    let t ← temporary
    let lets ← unpackFields span type t fields
    return ⟨t, type, value⟩ :: lets

end

/-- The name of a parameter, and the bindings that take it apart. -/
def bindParam : Typed.Pattern → Pass (Ident × List Let)
  | .var _ name _ => return (name, [])
  | .record span _ type fields => do
    let t ← temporary
    return (t, ← unpackFields span type t fields)

/-- Parameters as arguments that are only read, and the bindings that take them apart. -/
def bindParams : List Typed.Param → Pass (List Argument × List Let)
  | [] => return ([], [])
  | p :: rest => do
    let (name, lets) ← bindParam p.pattern
    let (args, more) ← bindParams rest
    return (⟨name, p.type, .borrowed⟩ :: args, lets ++ more)

def withLets (lets : List Let) (body : Expr) : Expr :=
  if lets.isEmpty then body else .block body.span lets body

mutual

/-- The types whose parameters a closure body needs at run time. -/
def neededTypes (e : Typed.Expr) : List Ty :=
  e.type :: match e with
    | .number _ _ _ | .bool _ _ | .var _ _ _ => []
    | .callDirect _ _ _ generics args => generics ++ neededTypesAll args
    | .callClosure _ _ callee args => neededTypes callee ++ neededTypesAll args
    | .operation _ _ left right => neededTypes left ++ neededTypes right
    | .record _ _ _ fields => neededFieldTypes fields
    | .block _ lets result => neededLetTypes lets ++ neededTypes result
    | .cond _ test yes no => neededTypes test ++ neededTypes yes ++ neededTypes no
    | .closure _ _ _ body => neededTypes body

def neededTypesAll : List Typed.Expr → List Ty
  | [] => []
  | e :: rest => neededTypes e ++ neededTypesAll rest

def neededFieldTypes : List Typed.FieldInit → List Ty
  | [] => []
  | ⟨_, value⟩ :: rest => neededTypes value ++ neededFieldTypes rest

def neededLetTypes : List Typed.Let → List Ty
  | [] => []
  | ⟨_, value⟩ :: rest => neededTypes value ++ neededLetTypes rest

end

/-- The type parameters a closure needs: those of what it captures and of its own type,
then those met in its body. -/
def closureGenerics (closure : Ty) (captures : List Typed.Capture) (body : Typed.Expr) :
    List Ident :=
  addIdents [] ((captures.map (·.type) ++ closure :: neededTypes body).flatMap Ty.parameters)

/-- The struct that holds what a closure takes along. -/
def environment (span : Span) (name : Ident) (generics : List Ident) (captures : List Capture) :
    Struct :=
  ⟨span, name, generics,
    generics.map (fun g => ⟨g.mangled, Ty.witness⟩)
      ++ captures.map fun c => ⟨c.name.mangled, c.type⟩⟩

/-- Adds the environment of a closure; gives its name. -/
def addEnvironment (span : Span) (generics : List Ident) (captures : List Capture) :
    Pass Ident := do
  let n := (← get).environments
  let env ← synthetic ("_Env" ++ toString n)
  modify fun s => { s with environments := n + 1 }
  addStruct (environment span env generics captures)
  return env

mutual

/-- Makes the type arguments of an expression explicit. -/
def expr : Typed.Expr → Pass Expr
  | .number span text bits => return .number span text bits
  | .bool span value => return .bool span value
  | .var span name type => return .var span type name
  | .callDirect span type function generics args => do
    return .callDirect span type function (← exprs args) (generics.map Ty.witnessExpr)
  | .callClosure span type callee args => do
    let callee ← expr callee
    return .callClosure span type callee (← exprs args)
  | .operation span op left right => do
    let left ← expr left
    return .primitive span op left (← expr right)
  | .record span name args fields => return .pack span name args (← packFields fields)
  | .block span bs result => do
    let bs ← lets bs
    return .block span bs (← expr result)
  | .cond span test yes no => do
    let test ← expr test
    let yes ← expr yes
    return .cond span test yes (← expr no)
  | .closure span ps cs body => do
    let (params, unpacked) ← bindParams ps
    let generics := closureGenerics (.func (ps.map (·.type)) body.type) cs body
    let captures := cs.map fun c => Capture.mk c.name c.type
    let env ← addEnvironment span generics captures
    return .closure span params generics captures env (withLets unpacked (← expr body))

def exprs : List Typed.Expr → Pass (List Expr)
  | [] => return []
  | e :: rest => do
    let e ← expr e
    return e :: (← exprs rest)

def packFields : List Typed.FieldInit → Pass (List PackField)
  | [] => return []
  | ⟨name, value⟩ :: rest => do
    let value ← expr value
    return ⟨name, value⟩ :: (← packFields rest)

def lets : List Typed.Let → Pass (List Let)
  | [] => return []
  | ⟨p, value⟩ :: rest => do
    let value ← expr value
    let bound ← bindValue p value
    return bound ++ (← lets rest)

end

def function (f : Typed.Function) : Pass Function := do
  let result ← synthetic "_result"
  let (params, unpacked) ← bindParams f.params
  let body ← expr f.body
  return {
    span := f.span
    name := f.name
    arguments := ⟨result, f.result, .out⟩ :: params
      ++ f.generics.map fun g => ⟨g, Ty.witness, .borrowed⟩
    body := withLets unpacked body }

def pass (p : Typed.Program) : Program :=
  let work : Pass (List Function) := do
    p.structs.forM fun s =>
      addStruct ⟨s.span, s.name, s.generics, s.fields.map fun f => ⟨f.name, f.type⟩⟩
    p.functions.mapM function
  let (functions, s) := work.run {}
  ⟨p.unit, s.structs, s.builders, functions⟩

end WitnessLang.Explicit
