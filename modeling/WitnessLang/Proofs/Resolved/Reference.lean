import WitnessLang.Resolved.Error
import WitnessLang.Resolved.Tree
import WitnessLang.Scope.Table

set_option autoImplicit false

namespace WitnessLang.Resolved.Reference

structure Value where
  ident : Ident
  /-- Where it was declared. -/
  span : Span

inductive Meaning where
  | basic
  | parameter
  | struct (fields : List String)
  deriving DecidableEq

structure TypeName where
  ident : Ident
  span : Span
  meaning : Meaning

/-- Names in sight, the latest first. Variables and types do not get in each other's way. -/
structure Names where
  values : List Value := []
  types : List TypeName := []

namespace Names

/-- The names of an inner scope in front of those of the scopes around it. -/
def within (own outer : Names) : Names := ⟨own.values ++ outer.values, own.types ++ outer.types⟩

def value? (names : Names) (name : String) : Option Value := names.values.find? (·.ident.name == name)

def type? (names : Names) (name : String) : Option TypeName := names.types.find? (·.ident.name == name)

/-- The latest struct of a name, and its fields. What is not a struct is passed over. -/
def struct? (names : Names) (name : String) : Option (Ident × List String) :=
  names.types.findSome? fun t =>
    match t.meaning with
    | .struct fields => if t.ident.name = name then some (t.ident, fields) else none
    | _ => none

def basic : Names where
  types := [⟨⟨.bool, "Bool", true⟩, {}, .basic⟩, ⟨⟨.float, "F64", true⟩, {}, .basic⟩]

end Names

/-- Work that numbers declarations, and may fail. -/
abbrev Numbered := StateT Nat (Except Error)

def demand {α : Type} (found : Option α) (cause : Cause) (name : String) (span : Span) : Numbered α :=
  match found with
  | some a => return a
  | none => throw ⟨cause, name, span⟩

def refuse (taken : Option Span) (name : String) (span : Span) : Numbered Unit :=
  match taken with
  | some previous => throw ⟨.duplicateDefinition previous, name, span⟩
  | none => return

section Unit

-- The module that declarations belong to.
variable (unit : Nat)

def fresh : Numbered Tag := do
  let n ← get
  set (n + 1)
  return ⟨unit, n⟩

/-- Declares a variable in a scope. Only a binding may take over a name of the same scope. -/
def declareValue (kind : SymbolKind) (own : Names) (name : String) (span : Span) :
    Numbered (Ident × Names) := do
  let taken := if kind = .binding then none else own.values.reverse.find? (·.ident.name == name)
  refuse (taken.map (·.span)) name span
  let i := ⟨← fresh unit, name, kind = .function⟩
  return (i, { own with values := ⟨i, span⟩ :: own.values })

def declareType (meaning : Meaning) (own : Names) (name : String) (span : Span) :
    Numbered (Ident × Names) := do
  let taken := own.types.reverse.find? (·.ident.name == name)
  refuse (taken.map (·.span)) name span
  let i := ⟨← fresh unit, name, meaning ≠ .parameter⟩
  return (i, { own with types := ⟨i, span, meaning⟩ :: own.types })

def TypeName.applied (t : TypeName) (span : Span) (args : List TypeExpr) : TypeExpr :=
  if t.meaning = .parameter then .generic span t.ident args else .named span t.ident args

mutual

def typeExpr (names : Names) : Surface.TypeExpr → Numbered TypeExpr
  | .named span name => do
    let t ← demand (names.type? name) .undefinedType name span
    return t.applied span []
  | .apply span name args => do
    let t ← demand (names.type? name) .undefinedType name span
    return t.applied span (← typeExprs names args)
  | .func span args result => do
    let args ← typeExprs names args
    return .func span args (← typeExpr names result)

def typeExprs (names : Names) : List Surface.TypeExpr → Numbered (List TypeExpr)
  | [] => return []
  | t :: rest => do
    let t ← typeExpr names t
    return t :: (← typeExprs names rest)

end

/-- What is wrong with one of the given fields: the struct has no such field, or it was given before. -/
def wrong? (declared : List String) (given : List (String × Span)) : (String × Span) × Nat → Option Error :=
  fun ((name, span), i) =>
    if name ∉ declared then some ⟨.extraField declared, name, span⟩
    else if name ∈ (given.take i).map (·.1) then some ⟨.duplicateDefinition {}, name, span⟩
    else none

/-- The first field of the struct that is not given. -/
def missingField? (declared : List String) (given : List (String × Span)) : Option String :=
  declared.find? (· ∉ given.map (·.1))

/-- Exactly the fields of a struct have to be given. -/
def exactFields (declared : List String) (given : List (String × Span)) (missing : List String → Cause)
    (whole : Span) : Numbered Unit :=
  match given.zipIdx.findSome? (wrong? declared given) with
  | some e => throw e
  | none =>
    match missingField? declared given with
    | some name => throw ⟨missing declared, name, whole⟩
    | none => return

mutual

/-- Resolves a pattern; what it binds is declared in the scope at hand. -/
def pattern (kind : SymbolKind) (outer own : Names) : Surface.Pattern → Numbered (Pattern × Names)
  | .var span name => do
    let (i, own) ← declareValue unit kind own name span
    return (.var span i, own)
  | .record span name fields => do
    let (i, declared) ← demand ((own.within outer).struct? name) .undefinedStruct name span
    exactFields declared (fields.map fun f => (f.name, f.span)) .patternMissingField span
    let (fields, own) ← fieldPatterns kind outer own fields
    return (.record span i fields, own)

def fieldPatterns (kind : SymbolKind) (outer own : Names) :
    List Surface.FieldPattern → Numbered (List FieldPattern × Names)
  | [] => return ([], own)
  | ⟨span, name, p⟩ :: rest => do
    let (p, own) ← pattern kind outer own p
    let (rest, own) ← fieldPatterns kind outer own rest
    return (⟨span, name, p⟩ :: rest, own)

end

/-- Resolves parameters in order; no type sees the variables of its own pattern. -/
def params (outer own : Names) : List Surface.Param → Numbered (List Param × Names)
  | [] => return ([], own)
  | p :: rest => do
    let t ← typeExpr (own.within outer) p.type
    let (q, own) ← pattern unit .param outer own p.pattern
    let (rest, own) ← params outer own rest
    return (⟨p.span, q, t⟩ :: rest, own)

mutual

def expr (names : Names) : Surface.Expr → Numbered Expr
  | .number span text bits => return .number span text bits
  | .bool span value => return .bool span value
  | .var span name => do
    let v ← demand (names.value? name) .undefinedVariable name span
    return .var span v.ident
  | .call span callee args => do
    let callee ← expr names callee
    return .call span callee (← exprs names args)
  | .operation span op left right => do
    let left ← expr names left
    return .operation span op left (← expr names right)
  | .record span name nameSpan fields => do
    let (i, declared) ← demand (names.struct? name) .undefinedStruct name nameSpan
    exactFields declared (fields.map fun f => (f.name, f.span)) .missingField span
    return .record span i (← fieldInits names fields)
  | .block span bs result => do
    let (bs, own) ← lets names {} bs
    return .block span bs (← expr (own.within names) result)
  | .annotated span value type => do
    let value ← expr names value
    return .annotated span value (← typeExpr names type)
  | .case span scrutinee as => do
    let scrutinee ← expr names scrutinee
    return .case span scrutinee (← arms names as)
  | .cond span test yes no => do
    let test ← expr names test
    let yes ← expr names yes
    return .cond span test yes (← expr names no)
  | .closure span ps body => do
    let (ps, own) ← params unit names {} ps
    return .closure span ps (← expr (own.within names) body)

def exprs (names : Names) : List Surface.Expr → Numbered (List Expr)
  | [] => return []
  | e :: rest => do
    let e ← expr names e
    return e :: (← exprs names rest)

def fieldInits (names : Names) : List Surface.FieldInit → Numbered (List FieldInit)
  | [] => return []
  | ⟨span, name, value⟩ :: rest => do
    let value ← expr names value
    return ⟨span, name, value⟩ :: (← fieldInits names rest)

/-- Resolves bindings in order, each of which sees those before it. -/
def lets (outer own : Names) : List Surface.Let → Numbered (List Let × Names)
  | [] => return ([], own)
  | ⟨span, p, value⟩ :: rest => do
    let value ← expr (own.within outer) value
    let (p, own) ← pattern unit .binding outer own p
    let (rest, own) ← lets outer own rest
    return (⟨span, p, value⟩ :: rest, own)

/-- Resolves an alternative, which sees what its own pattern binds. -/
def arm (names : Names) : Surface.Arm → Numbered Arm
  | ⟨span, p, body⟩ => do
    let (p, own) ← pattern unit .binding names {} p
    return ⟨span, p, ← expr (own.within names) body⟩

def arms (names : Names) : List Surface.Arm → Numbered (List Arm)
  | [] => return []
  | a :: rest => do
    let a ← arm names a
    return a :: (← arms names rest)

end

/-- Whether an earlier field has the name of a field. -/
def repeats (fields : List Surface.Field) : Surface.Field × Nat → Bool :=
  fun (f, i) => f.name ∈ (fields.take i).map (·.name)

def declareItem (own : Names) : Surface.Item → Numbered (Ident × Names)
  | .struct s =>
    match s.fields.zipIdx.find? (repeats s.fields) with
    | some (f, _) => throw ⟨.duplicateDefinition {}, f.name, f.span⟩
    | none => declareType unit (.struct (s.fields.map (·.name))) own s.name s.nameSpan
  | .func f => declareValue unit .function own f.name f.nameSpan

/-- Declares the names of definitions in order. -/
def declareItems (own : Names) : List Surface.Item → Numbered (List Ident × Names)
  | [] => return ([], own)
  | item :: rest => do
    let (i, own) ← declareItem unit own item
    let (is, own) ← declareItems own rest
    return (i :: is, own)

def generics (own : Names) : List Surface.Generic → Numbered (List Ident × Names)
  | [] => return ([], own)
  | g :: rest => do
    let (i, own) ← declareType unit .parameter own g.name g.span
    let (is, own) ← generics own rest
    return (i :: is, own)

/-- Resolves the fields of a struct in order; the number of a field comes behind its type. -/
def structFields (names : Names) : List Surface.Field → Numbered (List Field)
  | [] => return []
  | f :: rest => do
    let t ← typeExpr names f.type
    let tag ← fresh unit
    return ⟨f.span, ⟨tag, f.name, false⟩, t⟩ :: (← structFields names rest)

def struct (names : Names) (name : Ident) (s : Surface.Struct) : Numbered Struct := do
  let (gs, own) ← generics unit {} s.generics
  return ⟨s.span, name, gs, ← structFields unit (own.within names) s.fields⟩

def function (names : Names) (name : Ident) (f : Surface.Function) : Numbered Function := do
  let (gs, own) ← generics unit {} f.generics
  let (ps, own) ← params unit names own f.params
  let result ← typeExpr (own.within names) f.result
  return ⟨f.span, name, gs, ps, result, ← expr unit (own.within names) f.body⟩

/-- The struct definitions of a file, resolved in order. -/
def structs (names : Names) : List (Ident × Surface.Item) → Numbered (List Struct)
  | [] => return []
  | (name, .struct s) :: rest => do
    let s ← struct unit names name s
    return s :: (← structs names rest)
  | (_, .func _) :: rest => structs names rest

/-- The function definitions of a file, resolved in order. -/
def functions (names : Names) : List (Ident × Surface.Item) → Numbered (List Function)
  | [] => return []
  | (name, .func f) :: rest => do
    let f ← function unit names name f
    return f :: (← functions names rest)
  | (_, .struct _) :: rest => functions names rest

/-- Resolves the definitions of a file. All of them see each other. -/
def program (items : List Surface.Item) : Numbered Program := do
  let (is, own) ← declareItems unit {} items
  let names := own.within .basic
  let ss ← structs unit names (is.zip items)
  return ⟨unit, ss, ← functions unit names (is.zip items)⟩

/-- Resolves a file whose declarations belong to a module. -/
def resolve (file : Surface.File) : Except Error Program := (program unit file.items).run' 0

end Unit

end WitnessLang.Resolved.Reference
