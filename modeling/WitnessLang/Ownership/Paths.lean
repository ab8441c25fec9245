import WitnessLang.Ir.Basic

set_option autoImplicit false

namespace WitnessLang.Ownership

open Ir

mutual

/-- The paths through an instruction: itself, or the paths through its branches. -/
def instrPaths : Instr → List (List Instr)
  | .cond _ _ yes no => extendPaths [[]] yes ++ extendPaths [[]] no
  | i => [[i]]

/-- Continues each of some paths through a block; what comes first varies fastest. -/
def extendPaths (heads : List (List Instr)) : List Instr → List (List Instr)
  | [] => heads
  | i :: rest =>
    extendPaths ((instrPaths i).flatMap fun tail => heads.map (· ++ tail)) rest

end

def blockPaths (b : Block) : List (List Instr) := extendPaths [[]] b

/-- The variables whose values an instruction consumes. -/
def consumed : Instr → List VarId
  | .move _ src => [src]
  | .destroy v => [v]
  | .pack _ _ fields => moved (fields.map (·.value))
  | .makeClosure _ _ env => moved [env]
  | .callDirect _ args | .callClosure _ args =>
    moved ((args.filter (·.convention != .out)).map (·.value))
  | _ => []
where
  /-- The operands that give their values away. -/
  moved (values : List Value) : List VarId := (values.filter (·.mode == .move)).map (·.var)

inductive PathFault where
  | usedAfterConsumed (var : VarId)
  | descriptionGone (description var : VarId)
  | argumentDestroyed (var : VarId)
  | consumedTimes (var : VarId) (times : Nat)
  /-- An instruction mentions a variable that does not exist. -/
  | missingVariable
  deriving DecidableEq, Repr

/-- The fault in words; nothing can be said about a variable that does not exist. -/
def PathFault.message? (f : Function) : PathFault → Option String
  | .usedAfterConsumed v =>
    some (f.name ++ ": " ++ nameOf f.vars v ++ " used after it was consumed")
  | .descriptionGone w v =>
    some (f.name ++ ": witness " ++ nameOf f.vars w ++ " of " ++ nameOf f.vars v
      ++ " already destroyed")
  | .argumentDestroyed v =>
    some (f.name ++ ": argument " ++ nameOf f.vars v ++ " destroyed")
  | .consumedTimes v n =>
    some (f.name ++ ": " ++ nameOf f.vars v ++ " consumed " ++ toString n
      ++ " times on a path")
  | .missingVariable => none

/-- Mentions a variable when others have been consumed. -/
def mention (vs : Variables) (gone : List VarId) (v : VarId) : Except PathFault Unit :=
  match vs[v]? with
  | none => .error .missingVariable
  | some x =>
    if gone.contains v then .error (.usedAfterConsumed v)
    else match x.witness.location? with
      | some w => if gone.contains w then .error (.descriptionGone w v) else .ok ()
      | none => .ok ()

def destroyedArgument? (args : List VarId) : Instr → Option VarId
  | .destroy v => if args.contains v then some v else none
  | _ => none

def followPath (vs : Variables) (args : List VarId) :
    List VarId → List Instr → Except PathFault (List VarId)
  | gone, [] => .ok gone
  | gone, i :: rest => do
    i.operands.forM (mention vs gone)
    match destroyedArgument? args i with
    | some v => .error (.argumentDestroyed v)
    | none => followPath vs args (consumed i ++ gone) rest

/-- Requires a local that a path mentions to be consumed once. -/
def checkLocal (vs : Variables) (mentioned gone : List VarId) (v : VarId) :
    Except PathFault Unit :=
  match vs[v]? with
  | none => .ok ()
  | some x =>
    if !mentioned.contains v || x.witness.isTrivial || gone.count v = 1 then .ok ()
    else .error (.consumedTimes v (gone.count v))

def checkPath (f : Function) (path : List Instr) : Except PathFault Unit := do
  let gone ← followPath f.vars (f.arguments.map (·.var)) [] path
  f.locals.forM (checkLocal f.vars (path.flatMap Instr.operands) gone)

def checkPaths (f : Function) : Except PathFault Unit := (blockPaths f.body).forM (checkPath f)

end WitnessLang.Ownership
