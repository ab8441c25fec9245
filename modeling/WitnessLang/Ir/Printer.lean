import WitnessLang.Ir.Basic

set_option autoImplicit false

namespace WitnessLang.Ir

def Witness.render (vs : Variables) : Witness → String
  | .trivial size => "Trivial(" ++ toString size.toInt ++ ")"
  | .type => "Type"
  | .dynamic v =>
    match vs[v]? with
    | some x => "Dynamic(" ++ x.name ++ ")"
    | none => "Dynamic(?)"
  | .unknown => "?"

def renderType : Option Ty → String
  | some t => t.render
  | none => "<nil>"

def Variable.declaration (vs : Variables) (x : Variable) : String :=
  x.name ++ ": " ++ renderType x.type ++ " [" ++ x.witness.render vs ++ "]"

def Argument.render? (vs : Variables) (a : Argument) : Option String :=
  (vs[a.var]?).map fun x => a.convention.word ++ " " ++ x.declaration vs

def renderArguments? (vs : Variables) (args : List Argument) : Option (List String) :=
  args.mapM (Argument.render? vs)

def Value.render (vs : Variables) (v : Value) : String := v.mode.word ++ " " ++ nameOf vs v.var

/-- An operand of a call; the mode of a result does not matter. -/
def CallArg.render (vs : Variables) (a : CallArg) : String :=
  if a.convention = .out then "out " ++ nameOf vs a.value.var
  else a.convention.word ++ " " ++ a.value.render vs

def PackField.render (vs : Variables) (f : PackField) : String := f.name ++ ": " ++ f.value.render vs

def renderCallArgs (vs : Variables) (args : List CallArg) : String :=
  "(" ++ commaSeparated (args.map (CallArg.render vs)) ++ ")"

mutual

def Instr.outline (vs : Variables) : Instr → Outline
  | .set dst value => .line (nameOf vs dst ++ " = " ++ value.text)
  | .copy dst src => .line (nameOf vs dst ++ " = copy " ++ nameOf vs src)
  | .move dst src => .line (nameOf vs dst ++ " = move " ++ nameOf vs src)
  | .destroy v => .line ("destroy " ++ nameOf vs v)
  | .primitive dst op left right =>
    .line (nameOf vs dst ++ " = " ++ nameOf vs left ++ " " ++ Instr.sign op ++ " "
      ++ nameOf vs right)
  | .callDirect function args => .line (function ++ renderCallArgs vs args)
  | .callClosure closure args => .line ("call " ++ nameOf vs closure ++ renderCallArgs vs args)
  | .pack dst struct fields =>
    .line (nameOf vs dst ++ " = " ++ struct ++ " \x7b "
      ++ commaSeparated (fields.map (PackField.render vs)) ++ " \x7d")
  | .unpack dst src field => .line (nameOf vs dst ++ " = " ++ nameOf vs src ++ "." ++ field)
  | .makeClosure dst function env =>
    .line (nameOf vs dst ++ " = closure " ++ function ++ "(" ++ env.render vs ++ ")")
  | .cond dst test yes no =>
    .under (nameOf vs dst ++ " = if " ++ nameOf vs test ++ " \x7b") (Instr.outlines vs yes)
      ++ .under "\x7d else \x7b" (Instr.outlines vs no) ++ .line "\x7d"

def Instr.outlines (vs : Variables) : List Instr → Outline
  | [] => []
  | i :: rest => i.outline vs ++ Instr.outlines vs rest

end

def Function.outline? (f : Function) : Option Outline := do
  let args ← renderArguments? f.vars f.arguments
  return .under ("func " ++ f.name ++ "(" ++ commaSeparated args ++ ") \x7b")
      ((f.frame.slots.flatMap fun p =>
        Outline.line ("local " ++ p.slot.name ++ " @" ++ p.offset.render))
      ++ Instr.outlines f.vars f.body)
    ++ .line "\x7d"

def fieldOutlines? (vs : Variables) : List Field → List Placed → Option Outline
  | [], _ => some []
  | _ :: _, [] => none
  | f :: rest, p :: places => do
    let line := "field " ++ f.name ++ ": " ++ f.type.render ++ " [" ++ f.witness.render vs ++ "] @"
      ++ p.offset.render
    return .line line ++ (← fieldOutlines? vs rest places)

def Struct.outline? (s : Struct) : Option Outline := do
  let args ← renderArguments? s.vars s.arguments
  let fields ← fieldOutlines? s.vars s.fields s.layout.slots
  return .under ("struct " ++ s.name ++ "(" ++ commaSeparated args ++ ") \x7b")
      (Instr.outlines s.vars s.body ++ fields)
    ++ .line "\x7d"

def Function.render? (f : Function) : Option String := f.outline?.map Outline.render

def Program.render? (p : Program) : Option String := do
  let structs ← p.structs.mapM Struct.outline?
  let functions ← p.functions.mapM Function.outline?
  return Outline.render (structs.flatten ++ functions.flatten)

end WitnessLang.Ir
