import WitnessLang.Resolved.Error
import WitnessLang.Resolved.Tree
import WitnessLang.Scope.Table

set_option autoImplicit false

namespace WitnessLang.Resolved

/-- Work on a resolver that may fail; what it did up to the failure remains. -/
abbrev Resolve := ExceptT Error (StateM Resolver)

def inScope {α : Type} (kind : ScopeKind) (span : Span) (body : Resolve α) : Resolve α := do
  modify fun r => r.enter kind span
  let result ← tryCatch (Except.ok <$> body) (fun e => pure (.error e))
  modify Resolver.leave
  match result with
  | .ok a => return a
  | .error e => throw e

def symbolAt (id : Nat) : Resolve Symbol := do
  return ((← get).table.symbol? id).getD default

def declare (name : String) (span : Span) (kind : SymbolKind) (fields : List String := []) :
    Resolve Ident := do
  let (r, result) := (← get).declare name span kind fields
  set r
  match result with
  | .new id => return (← symbolAt id).ident
  | .conflict id => throw ⟨.duplicateDefinition (← symbolAt id).span, name, span⟩
  | .nowhere => throw ⟨.duplicateDefinition {}, name, span⟩

def lookup (mask : KindMask) (name : String) (span : Span) (cause : Cause) : Resolve Symbol := do
  match (← get).lookup? mask name with
  | some id => symbolAt id
  | none => throw ⟨cause, name, span⟩

mutual

def typeExpr : Surface.TypeExpr → Resolve TypeExpr
  | .named span name => do
    let s ← lookup .types name span .undefinedType
    return if s.kind == .generic then .generic span s.ident [] else .named span s.ident []
  | .apply span name args => do
    let s ← lookup .types name span .undefinedType
    let args ← typeExprs args
    return if s.kind == .generic then .generic span s.ident args else .named span s.ident args
  | .func span args result => do
    let args ← typeExprs args
    return .func span args (← typeExpr result)

def typeExprs : List Surface.TypeExpr → Resolve (List TypeExpr)
  | [] => return []
  | t :: rest => do
    let t ← typeExpr t
    return t :: (← typeExprs rest)

end

/-- The given fields are fields of the struct, none twice. -/
def checkGiven (declared : List String) : List String → List (String × Span) → Resolve Unit
  | _, [] => return
  | before, (name, span) :: rest => do
    if !declared.contains name then throw ⟨.extraField declared, name, span⟩
    if before.contains name then throw ⟨.duplicateDefinition {}, name, span⟩
    checkGiven declared (before ++ [name]) rest

/-- The given fields are exactly those of the struct. -/
def checkFields (declared : List String) (given : List (String × Span))
    (missing : List String → Cause) (whole : Span) : Resolve Unit := do
  checkGiven declared [] given
  match declared.find? fun d => !(given.map (·.1)).contains d with
  | some d => throw ⟨missing declared, d, whole⟩
  | none => return

mutual

/-- Resolves a pattern, declaring what it binds in the current scope. -/
def pattern (kind : SymbolKind) : Surface.Pattern → Resolve Pattern
  | .var span name => return .var span (← declare name span kind)
  | .record span name fields => do
    let s ← lookup .structs name span .undefinedStruct
    checkFields s.fields (fields.map fun f => (f.name, f.span)) .patternMissingField span
    return .record span s.ident (← fieldPatterns kind fields)

def fieldPatterns (kind : SymbolKind) : List Surface.FieldPattern → Resolve (List FieldPattern)
  | [] => return []
  | ⟨span, name, p⟩ :: rest => do
    let p ← pattern kind p
    return ⟨span, name, p⟩ :: (← fieldPatterns kind rest)

end

/-- Resolves parameters in order; the type of each comes before its pattern. -/
def params : List Surface.Param → Resolve (List Param)
  | [] => return []
  | p :: rest => do
    let t ← typeExpr p.type
    let q ← pattern .param p.pattern
    return ⟨p.span, q, t⟩ :: (← params rest)

mutual

def expr : Surface.Expr → Resolve Expr
  | .number span text bits => return .number span text bits
  | .bool span value => return .bool span value
  | .var span name => return .var span (← lookup .values name span .undefinedVariable).ident
  | .call span callee args => do
    let callee ← expr callee
    return .call span callee (← exprs args)
  | .operation span op left right => do
    let left ← expr left
    return .operation span op left (← expr right)
  | .record span name nameSpan fields => do
    let s ← lookup .structs name nameSpan .undefinedStruct
    checkFields s.fields (fields.map fun f => (f.name, f.span)) .missingField span
    return .record span s.ident (← fieldInits fields)
  | .block span bs result => inScope .block span do
    let bs ← lets bs
    return .block span bs (← expr result)
  | .annotated span value type => do
    let value ← expr value
    return .annotated span value (← typeExpr type)
  | .case span scrutinee as => do
    let scrutinee ← expr scrutinee
    return .case span scrutinee (← arms as)
  | .cond span test yes no => do
    let test ← expr test
    let yes ← expr yes
    return .cond span test yes (← expr no)
  | .closure span ps body => inScope .closure span do
    let ps ← params ps
    return .closure span ps (← expr body)

def exprs : List Surface.Expr → Resolve (List Expr)
  | [] => return []
  | e :: rest => do
    let e ← expr e
    return e :: (← exprs rest)

def fieldInits : List Surface.FieldInit → Resolve (List FieldInit)
  | [] => return []
  | ⟨span, name, value⟩ :: rest => do
    let value ← expr value
    return ⟨span, name, value⟩ :: (← fieldInits rest)

/-- Resolves bindings in order; a value does not see what it is bound to. -/
def lets : List Surface.Let → Resolve (List Let)
  | [] => return []
  | ⟨span, p, value⟩ :: rest => do
    let value ← expr value
    let p ← pattern .binding p
    return ⟨span, p, value⟩ :: (← lets rest)

/-- Resolves alternatives in order, each in a scope of its own. -/
def arms : List Surface.Arm → Resolve (List Arm)
  | [] => return []
  | ⟨span, p, body⟩ :: rest => do
    let a ← inScope .arm span do
      let p ← pattern .binding p
      return Arm.mk span p (← expr body)
    return a :: (← arms rest)

end

/-- The first field that repeats the name of an earlier one. -/
def repeatedField? : List String → List Surface.Field → Option Surface.Field
  | _, [] => none
  | before, f :: rest =>
    if before.contains f.name then some f else repeatedField? (before ++ [f.name]) rest

def declareItem : Surface.Item → Resolve Ident
  | .struct s => do
    match repeatedField? [] s.fields with
    | some f => throw ⟨.duplicateDefinition {}, f.name, f.span⟩
    | none => declare s.name s.nameSpan .struct (s.fields.map (·.name))
  | .func f => declare f.name f.nameSpan .function

def generics (gs : List Surface.Generic) : Resolve (List Ident) :=
  gs.mapM fun g => declare g.name g.span .generic

/-- Resolves the fields of a struct; each field has a tag of its own. -/
def structFields : List Surface.Field → Resolve (List Field)
  | [] => return []
  | f :: rest => do
    let t ← typeExpr f.type
    let (tag, tags) := (← get).tags.fresh
    modify fun r => { r with tags := tags }
    return ⟨f.span, ⟨tag, f.name, false⟩, t⟩ :: (← structFields rest)

def struct (name : Ident) (s : Surface.Struct) : Resolve Struct :=
  inScope .function s.span do
    let gs ← generics s.generics
    return ⟨s.span, name, gs, ← structFields s.fields⟩

def function (name : Ident) (f : Surface.Function) : Resolve Function :=
  inScope .function f.span do
    let gs ← generics f.generics
    let ps ← params f.params
    let result ← typeExpr f.result
    return ⟨f.span, name, gs, ps, result, ← expr f.body⟩

def structsOf (items : List (Ident × Surface.Item)) : List (Ident × Surface.Struct) :=
  items.filterMap fun (name, item) =>
    match item with
    | .struct s => some (name, s)
    | .func _ => none

/-- The function definitions among named definitions. -/
def functionsOf (items : List (Ident × Surface.Item)) : List (Ident × Surface.Function) :=
  items.filterMap fun (name, item) =>
    match item with
    | .func f => some (name, f)
    | .struct _ => none

def program (items : List Surface.Item) : Resolve Program := do
  let names ← items.mapM declareItem
  let named := names.zip items
  let structs ← (structsOf named).mapM fun (name, s) => struct name s
  let functions ← (functionsOf named).mapM fun (name, f) => function name f
  return ⟨(← get).tags.unit, structs, functions⟩

/-- Resolves a file whose tags belong to module `unit`. -/
def resolve (file : Surface.File) (table : SymbolTable) (unit : Nat) :
    Except Error Program × SymbolTable :=
  let (result, r) := (program file.items).run.run (Resolver.start table unit file.span)
  (result, r.table)

end WitnessLang.Resolved
