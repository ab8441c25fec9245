import WitnessLang.Ir.Basic
import WitnessLang.Sized.Tree

set_option autoImplicit false

/-! Turning measured expressions into instructions. Type descriptions are computed
where they are first needed and reused in the same block and the blocks inside it.
The body of a closure becomes a function of its own that stands right behind the
function it occurs in. -/
namespace WitnessLang.Ir

inductive LowerFailure where
  /-- A frame or struct has no layout. -/
  | layout (name : String) (error : LayoutError)
  /-- The program does not hang together, as no measured program does. -/
  | inconsistent (message : String)

structure Draft where
  vars : Variables := #[]
  locals : List VarId := []
  /-- The variables of declared names. -/
  scope : List (Tag × VarId) := []
  temporaries : Nat := 0
  /-- The instructions of the current block. -/
  instrs : Array Instr := #[]
  /-- Type descriptions computed in this block or one around it, by the keys of their types. -/
  witnesses : List (String × VarId) := []

structure Lowering where
  target : Target
  layouts : StructLayouts
  /-- How many closures there are. -/
  closures : Nat := 0
  /-- Bodies of closures that have no place yet. -/
  lifted : List Function := []
  draft : Draft := {}

abbrev Lower := ExceptT LowerFailure (StateM Lowering)

def modifyDraft (f : Draft → Draft) : Lower Unit := modify fun s => { s with draft := f s.draft }

def emit (i : Instr) : Lower Unit := modifyDraft fun d => { d with instrs := d.instrs.push i }

def addVariable (v : Variable) : Lower VarId := do
  let id := (← get).draft.vars.size
  modifyDraft fun d => { d with vars := d.vars.push v }
  return id

/-- Makes a variable a local, which the function owns. -/
def addLocal (v : VarId) : Lower Unit :=
  modifyDraft fun d => { d with locals := d.locals ++ [v] }

def lookup (name : Ident) : Lower VarId := do
  match (← get).draft.scope.lookup name.tag with
  | some v => return v
  | none => throw (.inconsistent ("lower: variable " ++ name.mangled ++ " not in scope"))

def freshName : Lower String := do
  let n := (← get).draft.temporaries
  modifyDraft fun d => { d with temporaries := n + 1 }
  return "_" ++ toString n

def copyOf (v : VarId) : Value := ⟨.copy, v⟩

/-- The operands of a call: the place of the result, then the arguments. -/
def callArgs (dst : VarId) (args : List VarId) : List CallArg :=
  ⟨copyOf dst, .out⟩ :: args.map fun a => ⟨copyOf a, .borrowed⟩

mutual

/-- A variable that holds the type description which is computed so. -/
def witnessOperand : WitnessExpr → Lower VarId
  | .var name => lookup name
  | .build constructor args => do
    let name ← freshName
    let size := (← get).target.witnessSize
    let dst ← addVariable ⟨name, some Ty.witness, .type, ⟨size, []⟩⟩
    addLocal dst
    let args ← witnessOperands args
    emit (.callDirect constructor.mangled (callArgs dst args))
    return dst

def witnessOperands : List WitnessExpr → Lower (List VarId)
  | [] => return []
  | w :: rest => do
    let v ← witnessOperand w
    return v :: (← witnessOperands rest)

end

/-- How values of a type are copied and destroyed; computes the type description unless
that was done before. -/
def lowerWitness (t : Ty) : Sized.Witness → Lower Witness
  | .trivial size => return .trivial size
  | .type => return .type
  | .dynamic value => do
    match (← get).draft.witnesses.lookup t.key with
    | some v => return .dynamic v
    | none =>
      let v ← witnessOperand value
      modifyDraft fun d => { d with witnesses := (t.key, v) :: d.witnesses }
      return .dynamic v

def lowerSize (s : Sized.Size) : Lower Size := return ⟨s.static, ← s.dynamic.mapM lookup⟩

def newVariable (name : String) (shape : Sized.Shape) : Lower VarId := do
  let witness ← lowerWitness shape.type shape.layout.witness
  let size ← lowerSize shape.layout.size
  addVariable ⟨name, some shape.type, witness, size⟩

def define (v : Sized.Variable) : Lower VarId := do
  let id ← newVariable v.name.mangled v.shape
  modifyDraft fun d => { d with scope := (v.name.tag, id) :: d.scope }
  return id

def temporary (shape : Sized.Shape) : Lower VarId := do
  let v ← newVariable (← freshName) shape
  addLocal v
  return v

/-- A variable that holds the value of an expression: a named one as it is, any other
through a temporary that `write` fills. -/
def operand (e : Sized.Expr) (write : VarId → Lower Unit) : Lower VarId :=
  match e with
  | .var _ name => lookup name
  | _ => do
    let t ← temporary e.shape
    write t
    return t

/-- The value of a field: a named one is copied, any other moved out of its temporary. -/
def fieldValue (e : Sized.Expr) (write : VarId → Lower Unit) : Lower Value :=
  match e with
  | .var _ name => return copyOf (← lookup name)
  | _ => do
    let t ← temporary e.shape
    write t
    return ⟨.move, t⟩

/-- Collects instructions in a block of their own. Type descriptions computed there are
forgotten afterwards. -/
def inBlock (m : Lower Unit) : Lower Block := do
  let before := (← get).draft
  modifyDraft fun d => { d with instrs := #[] }
  m
  let inside := (← get).draft.instrs
  modifyDraft fun d => { d with instrs := before.instrs, witnesses := before.witnesses }
  return inside.toList

/-- Lays out the frame of the function under construction. -/
def finish (name : String) (arguments : List Argument) (span : Span) (isClosure : Bool) :
    Lower Function := do
  let s ← get
  let d := s.draft
  let slots := d.locals.map fun v =>
    slotOf d.vars (nameOf d.vars v) ((d.vars[v]?).getD default).size
  match Frame.compute name slots s.target with
  | .error e => throw (.layout name e)
  | .ok frame =>
    return {
      name, arguments, span, isClosure, frame
      vars := d.vars
      locals := d.locals
      body := d.instrs.toList
      temporaries := d.temporaries }

def beside {α : Type} (m : Lower α) : Lower α := do
  let outer := (← get).draft
  modifyDraft fun _ => {}
  let a ← m
  modifyDraft fun _ => outer
  return a

/-- Takes a captured variable out of the environment. -/
def unpackCapture (env : VarId) (v : Sized.Variable) : Lower Unit := do
  let x ← define v
  addLocal x
  emit (.unpack x env v.name.mangled)

def borrowedArgument (v : Sized.Variable) : Lower Argument := return ⟨← define v, .borrowed⟩

/-- The function behind a closure: its arguments are the result, the parameters and the
environment, whose fields are taken out before the body runs. -/
def liftClosure (name : String) (envType : Ty) (params generics captures : List Sized.Variable)
    (body : Sized.Expr) (write : VarId → Lower Unit) : Lower Function := beside do
  let pointer := (← get).target.pointerSize
  let env ← addVariable ⟨"_env", some envType, .trivial pointer, ⟨pointer, []⟩⟩
  generics.forM (unpackCapture env)
  let result ← newVariable "_result" body.shape
  let params ← params.mapM borrowedArgument
  captures.forM (unpackCapture env)
  write result
  finish name (⟨result, .out⟩ :: params ++ [⟨env, .borrowed⟩]) {} true

/-- Makes a closure: packs its environment and moves it into the closure. -/
def makeClosure (dst : VarId) (name : String) (envShape : Sized.Shape) (env : Ident)
    (taken : List Sized.Variable) : Lower Unit := do
  let e ← newVariable (← freshName) envShape
  addLocal e
  let fields ← taken.mapM fun v =>
    return PackField.mk v.name.mangled (copyOf (← lookup v.name))
  emit (.pack e env.mangled fields)
  emit (.makeClosure dst name ⟨.move, e⟩)

mutual

/-- Writes the value of an expression into a variable. Where the value is the last one of
the function, a local gives its value away instead of being copied. -/
def into (tail : Bool) : Sized.Expr → VarId → Lower Unit
  | .var _ name, dst => do
    let src ← lookup name
    if tail && (← get).draft.locals.contains src then emit (.move dst src)
    else emit (.copy dst src)
  | .number _ text bits, dst => emit (.set dst (.number text bits))
  | .bool _ value, dst => emit (.set dst (.bool value))
  | .primitive _ op left right, dst => do
    let l ← operand left (into false left)
    let r ← operand right (into false right)
    emit (.primitive dst (some op) l r)
  | .callDirect _ function args ws, dst => do
    let args ← operands args
    let ws ← witnessOperands ws
    emit (.callDirect function.mangled (callArgs dst (args ++ ws)))
  | .callClosure _ callee args, dst => do
    let c ← operand callee (into false callee)
    let args ← operands args
    emit (.callClosure c (callArgs dst args))
  | .block _ bs result, dst => do
    lets bs
    into tail result dst
  | .pack _ name fields, dst => do
    let fields ← packFields fields
    emit (.pack dst name.mangled fields)
  | .unpack _ value field, dst => do
    let src ← operand value (into false value)
    emit (.unpack dst src field)
  | .cond _ test yes no, dst => do
    let t ← operand test (into false test)
    let y ← inBlock (into tail yes dst)
    let n ← inBlock (into tail no dst)
    emit (.cond dst t y n)
  | .closure _ params generics captures env envShape body, dst => do
    let n := (← get).closures
    let name := "_closure_" ++ toString n
    modify fun s => { s with closures := n + 1 }
    let f ← liftClosure name envShape.type params generics captures body (into true body)
    modify fun s => { s with lifted := s.lifted ++ [f] }
    makeClosure dst name envShape env (generics ++ captures)

/-- Variables that hold the values of expressions, in order. -/
def operands : List Sized.Expr → Lower (List VarId)
  | [] => return []
  | e :: rest => do
    let v ← operand e (into false e)
    return v :: (← operands rest)

def packFields : List Sized.PackField → Lower (List PackField)
  | [] => return []
  | ⟨name, value⟩ :: rest => do
    let v ← fieldValue value (into false value)
    return ⟨name, v⟩ :: (← packFields rest)

def lets : List Sized.Let → Lower Unit
  | [] => return
  | ⟨v, value⟩ :: rest => do
    let x ← define v
    addLocal x
    into false value x
    lets rest

end

def isDescription (v : Sized.Variable) : Bool :=
  match v.shape.layout.witness with
  | .type => true
  | _ => false

/-- Lowers a function. Type descriptions come first: those of other arguments are built
from them. -/
def lowerFunction (f : Sized.Function) : Lower Function := beside do
  let (descriptions, values) := f.arguments.partition fun a => isDescription a.var
  let defined ← (descriptions ++ values).mapM fun a =>
    return (a.var.name.tag, Argument.mk (← define a.var) a.convention)
  let arguments := f.arguments.map fun a => (defined.lookup a.var.name.tag).getD default
  into true f.body (arguments.head?.getD default).var
  finish f.name.mangled arguments f.span false

def lowerStruct (s : Sized.Struct) : Lower Struct := beside do
  let target := (← get).target
  let result ← addVariable ⟨"_result", some Ty.witness, .type, ⟨target.witnessSize, []⟩⟩
  let args ← s.arguments.mapM borrowedArgument
  let fields ← s.fields.mapM fun f => do
    let witness ← lowerWitness f.shape.type f.shape.layout.witness
    return Field.mk f.name f.shape.type witness (← lowerSize f.shape.layout.size)
  let d := (← get).draft
  let name := s.name.mangled
  let slots := fields.map fun f => slotOf d.vars f.name f.size
  let (layout, layouts) := (← get).layouts.struct name slots
  modify fun st => { st with layouts := layouts }
  match layout with
  | .error e => throw (.layout name e)
  | .ok layout =>
    return ⟨name, d.vars, ⟨result, .out⟩ :: args, d.instrs.toList, fields, layout⟩

/-- Lowers a function; the bodies of its closures follow it. -/
def lowerWithClosures (f : Sized.Function) : Lower (List Function) := do
  let f ← lowerFunction f
  let lifted := (← get).lifted
  modify fun s => { s with lifted := [] }
  return f :: lifted

def lower (p : Sized.Program) : Except LowerFailure Program :=
  let work : Lower Program := do
    let structs ← p.structs.mapM lowerStruct
    let functions ← p.functions.mapM lowerWithClosures
    return ⟨p.unit, p.target, structs, functions.flatten⟩
  (work.run.run { target := p.target, layouts := ⟨p.target, []⟩ }).1

end WitnessLang.Ir
