import WitnessLang.Format.Yaml
import WitnessLang.Ir.Printer

set_option autoImplicit false

namespace WitnessLang.Ir

def yamlTexts (texts : List String) : Yaml := .list (texts.map .text)

/-- An entry that is left out when its list is empty. -/
def unlessEmpty (key : String) (items : List Yaml) : List (String × Yaml) :=
  if items.isEmpty then [] else [(key, .list items)]

def name? (vs : Variables) (v : VarId) : Option String := (vs[v]?).map (·.name)

def CallArg.yaml? (vs : Variables) (a : CallArg) : Option String := do
  return a.convention.word ++ " " ++ (← name? vs a.value.var)

/-- The destination and the operands of an instruction. -/
def Instr.parts? (vs : Variables) : Instr → Option (Option String × List String)
  | .set dst value => do return (some (← name? vs dst), [value.text])
  | .copy dst src | .move dst src => do return (some (← name? vs dst), [← name? vs src])
  | .destroy v => do return (none, [← name? vs v])
  | .primitive dst op left right => do
    return (some (← name? vs dst), [Instr.sign op, ← name? vs left, ← name? vs right])
  | .callDirect function args => do
    return (none, function :: (← args.mapM (CallArg.yaml? vs)))
  | .callClosure closure args => do
    return (none, (← name? vs closure) :: (← args.mapM (CallArg.yaml? vs)))
  | .pack dst struct fields => do
    return (some (← name? vs dst), struct :: fields.map (PackField.render vs))
  | .unpack dst src field => do return (some (← name? vs dst), [← name? vs src, field])
  | .makeClosure dst function env => do
    return (some (← name? vs dst), [function, env.render vs])
  | .cond dst test _ _ => do return (some (← name? vs dst), [← name? vs test])

/-- The entries for a destination; an empty name is left out. -/
def destinationEntry : Option String → List (String × Yaml)
  | some "" | none => []
  | some name => [("dst", .text name)]

mutual

def Instr.yaml? (vs : Variables) (i : Instr) : Option Yaml := do
  let (dst, args) ← i.parts? vs
  let branches ← match i with
    | .cond _ _ yes no => do
      let y ← Instr.yamls? vs yes
      let n ← Instr.yamls? vs no
      pure (unlessEmpty "then" y ++ unlessEmpty "else" n)
    | _ => pure []
  return .map (("op", .text i.kindName) :: destinationEntry dst
    ++ unlessEmpty "args" (args.map .text) ++ branches)

def Instr.yamls? (vs : Variables) : List Instr → Option (List Yaml)
  | [] => some []
  | i :: rest => do
    let y ← i.yaml? vs
    return y :: (← Instr.yamls? vs rest)

end

def fieldYamls? (vs : Variables) : List Field → List Placed → Option (List Yaml)
  | [], _ => some []
  | _ :: _, [] => none
  | f :: rest, p :: places => do
    let field := Yaml.map [("name", .text f.name), ("witness", .text (f.witness.render vs)),
      ("offset", .text p.offset.render)]
    return field :: (← fieldYamls? vs rest places)

def Struct.yaml? (s : Struct) : Option Yaml := do
  let args ← renderArguments? s.vars s.arguments
  let body ← Instr.yamls? s.vars s.body
  let fields ← fieldYamls? s.vars s.fields s.layout.slots
  return .map ([("name", .text s.name), ("arguments", yamlTexts args)] ++ unlessEmpty "body" body
    ++ [("fields", .list fields), ("size", .text s.layout.size.render)])

def Function.yaml? (f : Function) : Option Yaml := do
  let args ← renderArguments? f.vars f.arguments
  let body ← Instr.yamls? f.vars f.body
  let frame := f.frame.slots.map fun p =>
    Yaml.map [("name", .text p.slot.name), ("offset", .text p.offset.render)]
  return .map ([("name", .text f.name)] ++ (if f.isClosure then [("closure", .bool true)] else [])
    ++ [("arguments", yamlTexts args)] ++ unlessEmpty "frame" frame
    ++ [("frame_size", .text f.frame.size.render), ("body", .list body)])

def Program.yaml? (p : Program) : Option String := do
  let structs ← p.structs.mapM Struct.yaml?
  let functions ← p.functions.mapM Function.yaml?
  return (Yaml.map ([("target", .text p.target.triple)] ++ unlessEmpty "structs" structs
    ++ [("functions", .list functions)])).render

end WitnessLang.Ir
