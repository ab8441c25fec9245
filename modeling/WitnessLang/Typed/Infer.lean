import WitnessLang.Resolved.Tree
import WitnessLang.Typed.Error
import WitnessLang.Typed.Tree
import WitnessLang.Types.Unify

set_option autoImplicit false

/-! Which variables of enclosing scopes a closure reads. -/
namespace WitnessLang.Typed

mutual

/-- The variables bound by blocks of an expression; closures inside it count for themselves. -/
def Expr.bound : Expr → List Ident
  | .number _ _ _ | .bool _ _ | .var _ _ _ | .closure _ _ _ _ => []
  | .callDirect _ _ _ _ args => Expr.boundAll args
  | .callClosure _ _ callee args => callee.bound ++ Expr.boundAll args
  | .operation _ _ left right => left.bound ++ right.bound
  | .record _ _ _ fields => Expr.fieldBound fields
  | .block _ lets result => Expr.letBound lets ++ result.bound
  | .cond _ test yes no => test.bound ++ yes.bound ++ no.bound

def Expr.boundAll : List Expr → List Ident
  | [] => []
  | e :: rest => e.bound ++ Expr.boundAll rest

def Expr.fieldBound : List FieldInit → List Ident
  | [] => []
  | ⟨_, value⟩ :: rest => value.bound ++ Expr.fieldBound rest

/-- The variables bound by bindings and in their values. -/
def Expr.letBound : List Let → List Ident
  | [] => []
  | ⟨p, value⟩ :: rest => p.names ++ value.bound ++ Expr.letBound rest

end

mutual

/-- The variables an expression reads, in the order of evaluation, repetitions included.
A closure reads what it captures. -/
def Expr.reads : Expr → List Capture
  | .number _ _ _ | .bool _ _ => []
  | .var _ name t => [⟨name, t⟩]
  | .callDirect _ _ _ _ args => Expr.readsAll args
  | .callClosure _ _ callee args => callee.reads ++ Expr.readsAll args
  | .operation _ _ left right => left.reads ++ right.reads
  | .record _ _ _ fields => Expr.fieldReads fields
  | .block _ lets result => Expr.letReads lets ++ result.reads
  | .cond _ test yes no => test.reads ++ yes.reads ++ no.reads
  | .closure _ _ captures _ => captures

def Expr.readsAll : List Expr → List Capture
  | [] => []
  | e :: rest => e.reads ++ Expr.readsAll rest

def Expr.fieldReads : List FieldInit → List Capture
  | [] => []
  | ⟨_, value⟩ :: rest => value.reads ++ Expr.fieldReads rest

def Expr.letReads : List Let → List Capture
  | [] => []
  | ⟨_, value⟩ :: rest => value.reads ++ Expr.letReads rest

end

/-- The first reading of each variable outside `bound`, in order. -/
def firstReads (bound : List Tag) : List Capture → List Capture
  | [] => []
  | c :: rest =>
    if bound.contains c.name.tag then firstReads bound rest
    else c :: firstReads (c.name.tag :: bound) rest

/-- What a closure captures: each variable it reads and does not bind itself, in the order
of its first occurrence. -/
def captures (params : List Param) (body : Expr) : List Capture :=
  let bound := params.flatMap (·.pattern.names) ++ body.bound
  firstReads (bound.map (·.tag)) body.reads

structure Fault where
  cause : Cause
  span : Span

structure Signature where
  name : Ident
  generics : List Ident
  params : List Ty
  result : Ty

structure Globals where
  structs : List Struct
  functions : List Signature

namespace Globals

def struct? (g : Globals) (name : Ident) : Option Struct :=
  g.structs.find? fun s => s.name.tag == name.tag

def function? (g : Globals) (name : Ident) : Option Signature :=
  g.functions.find? fun f => f.name.tag == name.tag

end Globals

structure Progress where
  /-- The types of variables in scope. -/
  vars : List (Tag × Ty) := []
  bindings : Bindings := []
  /-- How many cells were minted so far, in this definition and those before it. -/
  minted : Nat := 0

abbrev Check := ReaderT Globals (ExceptT Fault (StateM Progress))

def fault {α : Type} (span : Span) (cause : Cause) : Check α := throw ⟨cause, span⟩

abbrev Arities := List (Tag × Nat)

mutual

/-- The type that is written, if every struct in it gets the right number of types. -/
def typeOf (arities : Arities) : Resolved.TypeExpr → Except Fault Ty
  | .generic _ name _ => return .generic name
  | .func _ args result => do
    let args ← typesOf arities args
    return .func args (← typeOf arities result)
  | .named span name args => do
    let want ←
      if name.tag.isBuiltin then pure 0
      else match arities.lookup name.tag with
        | some n => pure n
        | none => throw ⟨.unknownStruct name.name, span⟩
    if args.length ≠ want then throw ⟨.arity name.name want args.length, span⟩
    return .named name (← typesOf arities args)

def typesOf (arities : Arities) : List Resolved.TypeExpr → Except Fault (List Ty)
  | [] => return []
  | t :: rest => do
    let t ← typeOf arities t
    return t :: (← typesOf arities rest)

end

/-- How many types each of these structs is applied to. -/
def aritiesOf (structs : List Resolved.Struct) : Arities :=
  structs.map fun s => (s.name.tag, s.generics.length)

def writtenType (t : Resolved.TypeExpr) : Check Ty := do
  let arities := (← read).structs.map fun s => (s.name.tag, s.generics.length)
  match typeOf arities t with
  | .ok t => return t
  | .error f => throw f

def instantiate : List Ident → Check Substitution
  | [] => return []
  | g :: rest => do
    let n := (← get).minted + 1
    modify fun s => { s with minted := n }
    return (g.tag, .cell ⟨n, g.name⟩) :: (← instantiate rest)

def unify (expected found : Ty) (span : Span) : Check Unit := do
  let (result, b) := (Unify.types expected found).run.run (← get).bindings
  modify fun s => { s with bindings := b }
  match result with
  | .ok _ => return
  | .error .shapes => fault span (.mismatch (b.settle expected) (b.settle found))
  | .error (.generic name first second) => fault span (.genericMismatch name first second)

/-- Requires an expression that stands at a place to have a type. -/
def expect (expected : Ty) (span : Span) (e : Expr) : Check Expr := do
  unify expected e.type span
  return e

/-- Does something for each declared field for which something is given, in the order of
the declaration. -/
def forFields {α β : Type} (given : List (String × α)) (act : Field → α → Check β) :
    List Field → Check (List β)
  | [] => return []
  | f :: rest =>
    match given.lookup f.name with
    | some a => do
      let b ← act f a
      return b :: (← forFields given act rest)
    | none => forFields given act rest

mutual

/-- Binds the variables of a pattern to the parts of a type. -/
def bindPattern : Resolved.Pattern → Ty → Check Pattern
  | .var span name => fun t => do
    modify fun s => { s with vars := (name.tag, t) :: s.vars }
    return .var span name t
  | .record span name fields => fun t => do
    let some s := (← read).struct? name | fault span (.unknownStruct name.name)
    let sub ← instantiate s.generics
    unify (.named name (sub.map (·.2))) t span
    let bindField := fun (f : Field) (bind : Ty → Check Pattern) =>
      return FieldPattern.mk f.name (← bind (f.type.substitute sub))
    let fields ← forFields (fieldBinders fields) bindField s.fields
    return .record span name t fields

def fieldBinders : List Resolved.FieldPattern → List (String × (Ty → Check Pattern))
  | [] => []
  | ⟨_, name, p⟩ :: rest => (name, bindPattern p) :: fieldBinders rest

end

/-- Types the parameters of a closure, each before its variables are bound. -/
def closureParams : List Resolved.Param → Check (List Param)
  | [] => return []
  | p :: rest => do
    let t ← writtenType p.type
    let q ← bindPattern p.pattern t
    return ⟨q, t⟩ :: (← closureParams rest)

/-- The function that a callee names: one that is not a local variable. -/
def directCallee? : Resolved.Expr → Check (Option Ident)
  | .var _ name => do
    return if ((← get).vars.lookup name.tag).isSome then none else some name
  | _ => return none

/-- What a callee without a function type is called in a report. -/
def calleeName : Expr → Ty → String
  | .var _ name _, _ => name.name
  | _, t => t.render

mutual

def infer : Resolved.Expr → Check Expr
  | .number span text bits => return .number span text bits
  | .bool span value => return .bool span value
  | .var span name => do
    let some t := (← get).vars.lookup name.tag | fault span (.unknownVariable name.name)
    return .var span name t
  | .call span callee args => do
    match ← directCallee? callee with
    | some name =>
      let some f := (← read).function? name | fault callee.span (.unknownFunction name.name)
      if f.params.length ≠ args.length then
        fault span (.arity f.name.name f.params.length args.length)
      let sub ← instantiate f.generics
      let args ← inferArgs args (f.params.map (·.substitute sub))
      return .callDirect span (f.result.substitute sub) f.name (sub.map (·.2)) args
    | none =>
      let target ← infer callee
      match (← get).bindings.resolve target.type with
      | .func params result =>
        if params.length ≠ args.length then
          let t := (← get).bindings.settle (.func params result)
          fault span (.arity t.render params.length args.length)
        let args ← inferArgs args params
        return .callClosure span result target args
      | t => fault callee.span (.unknownFunction (calleeName target ((← get).bindings.settle t)))
  | .operation span op left right => do
    let l ← expect Ty.float left.span (← infer left)
    let r ← expect Ty.float right.span (← infer right)
    return .operation span op l r
  | .record span name fields => do
    let some s := (← read).struct? name | fault span (.unknownStruct name.name)
    let sub ← instantiate s.generics
    let inferField := fun (f : Field) (inference : Span × Check Expr) =>
      return FieldInit.mk f.name
        (← expect (f.type.substitute sub) inference.1 (← inference.2))
    let fields ← forFields (fieldInferences fields) inferField s.fields
    return .record span s.name (sub.map (·.2)) fields
  | .block span lets result => do
    let lets ← inferLets lets
    return .block span lets (← infer result)
  | .annotated _ value type => do
    let t ← writtenType type
    expect t value.span (← infer value)
  | .case span scrutinee arms => do
    let s ← infer scrutinee
    inferArms span s arms
  | .cond span test yes no => do
    let t ← expect Ty.bool test.span (← infer test)
    let y ← infer yes
    let n ← expect y.type no.span (← infer no)
    return .cond span t y n
  | .closure span params body => do
    let params ← closureParams params
    let body ← infer body
    return .closure span params (captures params body) body

/-- Infers arguments in order, each against the type of its parameter. -/
def inferArgs : List Resolved.Expr → List Ty → Check (List Expr)
  | e :: rest, t :: ts => do
    let a ← expect t e.span (← infer e)
    return a :: (← inferArgs rest ts)
  | _, _ => return []

/-- For each field the place of its value and the way to infer it. -/
def fieldInferences : List Resolved.FieldInit → List (String × Span × Check Expr)
  | [] => []
  | ⟨_, name, value⟩ :: rest => (name, value.span, infer value) :: fieldInferences rest

def inferLets : List Resolved.Let → Check (List Let)
  | [] => return []
  | ⟨_, p, value⟩ :: rest => do
    let value ← infer value
    let p ← bindPattern p value.type
    return ⟨p, value⟩ :: (← inferLets rest)

/-- Infers the alternatives of a case expression; the first gives its type and value. -/
def inferArms (span : Span) (scrutinee : Expr) : List Resolved.Arm → Check Expr
  | [] => return scrutinee
  | ⟨_, p, body⟩ :: rest => do
    let p ← bindPattern p scrutinee.type
    let body ← infer body
    checkArms scrutinee.type body.type rest
    return .block span [⟨p, scrutinee⟩] body

/-- Checks alternatives against the type of the first. -/
def checkArms (scrutinee result : Ty) : List Resolved.Arm → Check Unit
  | [] => return
  | ⟨_, p, body⟩ :: rest => do
    let _ ← bindPattern p scrutinee
    let _ ← expect result body.span (← infer body)
    checkArms scrutinee result rest

end

/-- Binds the parameters of a function to the types of its signature. -/
def bindParams : List Resolved.Param → List Ty → Check (List Param)
  | p :: rest, t :: ts => do
    let q ← bindPattern p.pattern t
    return ⟨q, t⟩ :: (← bindParams rest ts)
  | _, _ => return []

def openCell? (ts : List Ty) : Option Cell := (ts.flatMap Ty.cells).head?

def checkFunction (f : Resolved.Function) (s : Signature) : Check Function := do
  modify fun p => { minted := p.minted }
  let params ← bindParams f.params s.params
  let body ← expect s.result f.body.span (← infer f.body)
  let settle := (← get).bindings.settle
  let params := params.map fun p => { p with pattern := p.pattern.mapTypes settle }
  let body := body.mapTypes settle
  match openCell? (params.flatMap (·.pattern.types) ++ body.types) with
  | some c => fault f.span (.unspecifiedGeneric c.generic)
  | none => return ⟨f.span, f.name, f.generics, params, s.result, body⟩

def inDefinition {α : Type} (name : Ident) : Except Fault α → Except Error α
  | .ok a => .ok a
  | .error f => .error ⟨f.cause, f.span, name.name⟩

def structOf (arities : Arities) (s : Resolved.Struct) : Except Error Struct := do
  let types ← inDefinition s.name (typesOf arities (s.fields.map (·.type)))
  return ⟨s.span, s.name, s.generics, (s.fields.zip types).map fun (f, t) => ⟨f.name.name, t⟩⟩

def signatureOf (arities : Arities) (f : Resolved.Function) : Except Error Signature := do
  let params ← inDefinition f.name (typesOf arities (f.params.map (·.type)))
  let result ← inDefinition f.name (typeOf arities f.result)
  return ⟨f.name, f.generics, params, result⟩

/-- Checks functions in order; cells are numbered through. -/
def checkFunctions (g : Globals) :
    Nat → List (Resolved.Function × Signature) → Except Error (List Function)
  | _, [] => return []
  | minted, (f, s) :: rest => do
    let (result, p) := ((checkFunction f s).run g).run.run { minted := minted }
    let f ← inDefinition f.name result
    return f :: (← checkFunctions g p.minted rest)

def check (p : Resolved.Program) : Except Error Program := do
  let arities := aritiesOf p.structs
  let structs ← p.structs.mapM (structOf arities)
  let signatures ← p.functions.mapM (signatureOf arities)
  let functions ← checkFunctions ⟨structs, signatures⟩ 0 (p.functions.zip signatures)
  return ⟨p.unit, structs, functions⟩

end WitnessLang.Typed
