import WitnessLang.Sized.Error
import WitnessLang.Sized.Tree

set_option autoImplicit false

/-! Measuring values. The layout of a type is found once and then remembered under
the type's key. A struct is as large as its fields together; it is plain bytes if
all its fields are. -/
namespace WitnessLang.Sized

structure Context where
  target : Target
  structs : List Explicit.Struct
  /-- How deep the parts of a type may nest before the search for its layout is given up. -/
  depth : Nat

/-- Struct definitions by tag. The last one hides the others. -/
def Context.struct? (c : Context) (tag : Tag) : Option Explicit.Struct :=
  c.structs.reverse.find? fun s => s.name.tag == tag

structure OpenType where
  key : String
  text : String

structure State where
  vars : List (Tag × Variable) := []
  /-- Finished layouts under the keys of their types. -/
  known : List (String × Layout) := []
  /-- Types whose layouts are being found, the outermost first. -/
  opened : List OpenType := []
  instances : List Instance := []

/-- Why measuring stopped inside a definition; faults may still lack their place. -/
inductive Stop where
  | fault (cause : Cause) (span : Span)
  | inconsistent (message : String)
  | endless

abbrev Measure := ReaderT Context (ExceptT Stop (StateM State))

def atSpan {α : Type} (span : Span) (m : Measure α) : Measure α :=
  tryCatch m fun
    | .fault cause s => throw (.fault cause (if s = Span.none then span else s))
    | stop => throw stop

def lookup (name : Ident) : Measure Variable := do
  match (← get).vars.lookup name.tag with
  | some v => return v
  | none => throw (.inconsistent ("sizer: variable " ++ name.mangled ++ " not in scope"))

mutual

/-- The computation of a type description, every variable of which was defined. -/
def witness : WitnessExpr → Measure WitnessExpr
  | .var name => return .var (← lookup name).name
  | .build constructor args => return .build constructor (← witnesses args)

def witnesses : List WitnessExpr → Measure (List WitnessExpr)
  | [] => return []
  | w :: rest => do
    let w ← witness w
    return w :: (← witnesses rest)

end

/-- Adds up the layouts of fields: the size, and whether all are plain bytes. -/
def fieldsLayout (self : Ty → Measure Layout) : List Ty → Measure (Size × Bool)
  | ts => go {} true ts
where
  /-- Goes on from a size and whether all before are plain bytes. -/
  go (size : Size) (trivial : Bool) : List Ty → Measure (Size × Bool)
    | [] => return (size, trivial)
    | t :: rest => do
      let l ← self t
      go (size.add l.size) (trivial && l.witness.isTrivial) rest

/-- The layout of a struct applied to types, where `self` lays out its fields. -/
def structLayout (self : Ty → Measure Layout) (name : Ident) (args : List Ty) :
    Measure Layout := do
  let t := Ty.named name args
  let some s := (← read).struct? name.tag | throw (.fault (.unknownStruct t.render) {})
  if s.generics.length ≠ args.length then
    throw (.inconsistent ("sizer: " ++ s.name.mangled ++ " applied to "
      ++ toString args.length ++ " arguments"))
  let sub := (s.generics.map (·.tag)).zip args
  let (size, trivial) ← fieldsLayout self (s.fields.map fun f => f.type.substitute sub)
  let w ← if trivial then pure (Witness.trivial size.static)
    else Witness.dynamic <$> witness t.witnessExpr
  modify fun st => { st with instances := st.instances ++ [⟨s.name, args, ⟨w, size⟩⟩] }
  return ⟨w, size⟩

/-- The layout of a type, where `self` lays out the types it holds. -/
def computeLayout (self : Ty → Measure Layout) : Ty → Measure Layout
  | .named name args => do
    if name.tag = Tag.float ∨ name.tag = Tag.bool then return ⟨.trivial 8, ⟨8, []⟩⟩
    if name.tag = Tag.witness then return ⟨.type, ⟨(← read).target.witnessSize, []⟩⟩
    structLayout self name args
  | .generic name => do
    let v ← lookup name
    return ⟨.dynamic (.var v.name), ⟨0, [v.name]⟩⟩
  | .func args result => do
    let w ← witness (Ty.func args result).witnessExpr
    return ⟨.dynamic w, ⟨(← read).target.closureSize, []⟩⟩
  | .cell c => throw (.inconsistent ("sizer: layout of unresolved type " ++ (Ty.cell c).render))

/-- Does work while a type is open; the type is closed again however the work ends. -/
def whileOpen {α : Type} (o : OpenType) (m : Measure α) : Measure α := do
  modify fun s => { s with opened := s.opened ++ [o] }
  let a ← tryCatch m fun stop => do
    modify fun s => { s with opened := s.opened.dropLast }
    throw stop
  modify fun s => { s with opened := s.opened.dropLast }
  return a

/-- The layout of a type that is not yet known; a type that is being laid out holds itself. -/
def layoutStep (self : Ty → Measure Layout) (t : Ty) : Measure Layout := do
  let key := t.key
  let s ← get
  match s.known.lookup key with
  | some l => return l
  | none =>
    let inner := s.opened.dropWhile fun o => o.key != key
    if !inner.isEmpty then
      throw (.fault (.recursive t.render (inner.map (·.text) ++ [t.render])) {})
    let l ← whileOpen ⟨key, t.render⟩ (computeLayout self t)
    modify fun s => { s with known := (key, l) :: s.known }
    return l

/-- The layout of a type whose parts nest at most `n` deep. -/
def layoutWithin : Nat → Ty → Measure Layout
  | 0 => fun _ => throw .endless
  | n + 1 => layoutStep (layoutWithin n)

def layoutOf (t : Ty) : Measure Layout := do layoutWithin (← read).depth t

def shapeOf (t : Ty) : Measure Shape := return ⟨t, ← layoutOf t⟩

/-- Defines a variable; one that was defined before stays as it is. -/
def define (name : Ident) (t : Ty) : Measure Variable := do
  match (← get).vars.lookup name.tag with
  | some v => return v
  | none =>
    let v := Variable.mk name (← shapeOf t)
    modify fun s => { s with vars := (name.tag, v) :: s.vars }
    return v

mutual

def expr (e : Explicit.Expr) : Measure Expr := do
  let shape ← atSpan e.span (shapeOf e.type)
  match e with
  | .var _ _ name => return .var shape (← lookup name).name
  | .number _ text bits => return .number shape text bits
  | .bool _ value => return .bool shape value
  | .callDirect _ _ function args ws => do
    let args ← exprs args
    return .callDirect shape function args (← witnesses ws)
  | .callClosure _ _ callee args => do
    let callee ← expr callee
    return .callClosure shape callee (← exprs args)
  | .primitive _ op left right => do
    let left ← expr left
    return .primitive shape op left (← expr right)
  | .block _ bs result => do
    let bs ← lets bs
    return .block shape bs (← expr result)
  | .pack _ name _ fields => return .pack shape name (← packFields fields)
  | .unpack _ _ value field => return .unpack shape (← expr value) field
  | .cond _ test yes no => do
    let test ← expr test
    let yes ← expr yes
    return .cond shape test yes (← expr no)
  | .closure _ params generics captures env body => do
    let gs ← generics.mapM lookup
    let cs ← captures.mapM fun c => lookup c.name
    let ps ← params.mapM fun p => define p.name p.type
    if ((← read).struct? env.tag).isNone then throw (.fault (.unknownStruct env.mangled) {})
    let envShape ← shapeOf (.named env (generics.map Ty.generic))
    return .closure shape ps gs cs env envShape (← expr body)

def exprs : List Explicit.Expr → Measure (List Expr)
  | [] => return []
  | e :: rest => do
    let e ← expr e
    return e :: (← exprs rest)

def packFields : List Explicit.PackField → Measure (List PackField)
  | [] => return []
  | ⟨name, value⟩ :: rest => do
    let value ← expr value
    return ⟨name, value⟩ :: (← packFields rest)

/-- Measures bindings in order; each variable is defined after its value. -/
def lets : List Explicit.Let → Measure (List Let)
  | [] => return []
  | ⟨name, type, value⟩ :: rest => do
    let v ← expr value
    let x ← atSpan value.span (define name type)
    return ⟨x, v⟩ :: (← lets rest)

end

/-- Measures a struct in terms of its type parameters. -/
def struct (s : Explicit.Struct) (builder : Option Explicit.Builder) : Measure Struct := do
  let some b := builder
    | throw (.inconsistent ("sizer: struct " ++ s.name.mangled ++ " has no builder"))
  if b.fields.length ≠ s.fields.length then
    throw (.inconsistent ("sizer: builder of " ++ s.name.mangled ++ " has " ++ toString b.fields.length
      ++ " fields, struct has " ++ toString s.fields.length))
  let arguments ← b.arguments.mapM fun a => define a Ty.witness
  let fields ← s.fields.mapM fun f =>
    return Field.mk f.name (← atSpan s.span (shapeOf f.type))
  return ⟨s.span, s.name, arguments, fields⟩

def isWitnessType : Ty → Bool
  | .named name _ => name.tag == Tag.witness
  | _ => false

/-- Measures a function. Type descriptions come first: other arguments refer to them. -/
def function (f : Explicit.Function) : Measure Function := do
  let (descriptions, values) := f.arguments.partition fun a => isWitnessType a.type
  let _ ← (descriptions ++ values).mapM fun a => atSpan f.span (define a.name a.type)
  let arguments ← f.arguments.mapM fun a => return Argument.mk (← lookup a.name) a.convention
  return ⟨f.span, f.name, arguments, ← expr f.body⟩

def inDefinition {α : Type} (c : Context) (name : Ident) (m : Measure α) (s : State) :
    Except Failure (α × State) :=
  match (m.run c).run.run s with
  | (.ok a, s) => .ok (a, s)
  | (.error (.fault cause span), _) => .error (.error ⟨cause, span, name.name⟩)
  | (.error (.inconsistent message), _) => .error (.inconsistent message)
  | (.error .endless, _) => .error .endless

def eachDefinition {α β : Type} (c : Context) (name : α → Ident) (m : α → Measure β) :
    State → List α → Except Failure (List β × State)
  | s, [] => .ok ([], s)
  | s, a :: rest => do
    let (b, s) ← inDefinition c (name a) (m a) s
    let (bs, s) ← eachDefinition c name m s rest
    return (b :: bs, s)

/-- Measures a program whose types nest within a bound. -/
def measureWithin (depth : Nat) (p : Explicit.Program) (target : Target) :
    Except Failure Program := do
  let c : Context := ⟨target, p.structs, depth⟩
  let (structs, s) ←
    eachDefinition c (·.name) (fun s => struct s (p.builder? s.name.tag)) {} p.structs
  let (functions, s) ← eachDefinition c (·.name) function s p.functions
  return ⟨p.unit, target, structs, functions, s.instances⟩

/-- What measuring a program within some bound ended in. -/
structure Ended (p : Explicit.Program) (target : Target) where
  result : Except Failure Program
  within : ∃ depth, measureWithin depth p target = result

instance {p : Explicit.Program} {target : Target} : Nonempty (Ended p target) :=
  ⟨⟨measureWithin 0 p target, 0, rfl⟩⟩

/-- Measures a program within a bound, or goes on to a larger one if that is too narrow. -/
def tryWithin (p : Explicit.Program) (target : Target) (depth : Nat) :
    Option (Nat ⊕ Ended p target) :=
  match measured : measureWithin depth p target with
  | .error .endless => some (.inl (2 * depth))
  | result => some (.inr ⟨result, depth, measured⟩)

/-- The bound to start with, which few types go beyond. -/
def usualDepth : Nat := 4096

/-- Measures a program within ever larger bounds. This does not end if none is wide enough:
structs that hold ever larger applications of themselves are looked into without end. -/
def measure (p : Explicit.Program) (target : Target) : Except Failure Program :=
  match repeatM (tryWithin p target) usualDepth with
  | some ended => ended.result
  | none => .error .endless

end WitnessLang.Sized
