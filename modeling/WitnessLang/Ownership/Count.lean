import WitnessLang.Diagnostic.Code
import WitnessLang.Ir.Basic

set_option autoImplicit false

/-! What instructions do to variables: which they read, write and consume. Touching
a value also reads the type description it needs. -/
namespace WitnessLang.Ownership

open Ir

structure Usage where
  reads : List VarId := []
  writes : List VarId := []
  moves : List VarId := []
  deriving DecidableEq, Repr

/-- The variable with the type description that a variable needs. -/
def describedBy? (vs : Variables) (v : VarId) : Option VarId := do
  let l ← (← vs[v]?).witness.location?
  if l < vs.size then some l else none

def kept (values : List Value) : List VarId :=
  (values.filter (·.mode == .copy)).map (·.var)

def given (values : List Value) : List VarId :=
  (values.filter (·.mode == .move)).map (·.var)

def inputs (args : List CallArg) : List Value :=
  (args.filter (·.convention != .out)).map (·.value)

def results (args : List CallArg) : List VarId :=
  (args.filter (·.convention == .out)).map (·.value.var)

def directUsage : Instr → Usage
  | .set dst _ => { writes := [dst] }
  | .copy dst src | .unpack dst src _ => { writes := [dst], reads := [src] }
  | .move dst src => { writes := [dst], moves := [src] }
  | .destroy v => { moves := [v] }
  | .primitive dst _ left right => { writes := [dst], reads := [left, right] }
  | .callDirect _ args =>
    { writes := results args, reads := kept (inputs args), moves := given (inputs args) }
  | .callClosure closure args =>
    { writes := results args, reads := closure :: kept (inputs args),
      moves := given (inputs args) }
  | .pack dst _ fields =>
    { writes := [dst], reads := kept (fields.map (·.value)),
      moves := given (fields.map (·.value)) }
  | .makeClosure dst _ env => { writes := [dst], reads := kept [env], moves := given [env] }
  | .cond dst test _ _ => { writes := [dst], reads := [test] }

/-- What an instruction does, reading type descriptions included; nothing can be said if
an operand names no variable. -/
def usage? (vs : Variables) (i : Instr) : Option Usage :=
  let u := directUsage i
  let all := u.writes ++ u.reads ++ u.moves
  if all.all (· < vs.size) then
    some { u with reads := u.reads ++ all.filterMap (describedBy? vs) }
  else none

/-- Each element once, at the place of its first occurrence. -/
def firsts : List VarId → List VarId → List VarId
  | _, [] => []
  | before, v :: rest =>
    if before.contains v then firsts before rest else v :: firsts (v :: before) rest

def distinct (vs : List VarId) : List VarId := firsts [] vs

/-- What a block does to variables it does not write, at any depth. -/
structure OuterUsage where
  uses : List VarId
  moves : List VarId
  deriving DecidableEq, Repr

/-- What a block does to variables it does not write. -/
def outerUsage? (vs : Variables) (b : Block) : Option OuterUsage := do
  let us ← (Instr.flattenAll b).mapM (usage? vs)
  let written := us.flatMap (·.writes)
  let outer := fun (v : VarId) => !written.contains v
  return ⟨(distinct (us.flatMap fun u => u.reads ++ u.moves)).filter outer,
    (distinct (us.flatMap (·.moves))).filter outer⟩

/-- How a body can break the discipline of ownership. -/
inductive Cause where
  | writtenTwice
  | readBeforeWrite
  | usedAfterMove
  deriving DecidableEq, Repr

namespace Cause

def kindName : Cause → String
  | .writtenTwice => "WriteTwice"
  | .readBeforeWrite => "ReadBeforeWrite"
  | .usedAfterMove => "UseAfterMove"

def code : Cause → Code
  | .writtenTwice => .writtenTwice
  | .readBeforeWrite => .readBeforeWrite
  | .usedAfterMove => .usedAfterMove

def message : Cause → String
  | .writtenTwice => " written twice"
  | .readBeforeWrite => " read before it is written"
  | .usedAfterMove => " used after move"

end Cause

structure Error where
  cause : Cause
  function : String
  name : String
  deriving DecidableEq, Repr

def Error.message (e : Error) : String := e.function ++ ": " ++ e.name ++ e.cause.message

inductive Failure where
  | breach (cause : Cause) (var : VarId)
  /-- An instruction mentions a variable that does not exist. -/
  | missingVariable
  deriving DecidableEq, Repr

/-- What is known between two instructions of a block. -/
structure Scan where
  /-- Variables that hold a value. -/
  live : List VarId
  /-- Variables whose value is gone. -/
  moved : List VarId := []
  /-- Those of them that gave it away in this block itself. -/
  movedHere : List VarId := []
  /-- Variables written in this block, with the position of the instruction. -/
  written : List (VarId × Nat) := []

structure Step where
  instr : Instr
  usage : Usage
  /-- Variables used in its branches and written outside. -/
  branch : List VarId
  /-- The variables that hold a value before it. -/
  entry : List VarId

def Step.uses (s : Step) : List VarId := s.usage.reads ++ s.usage.moves ++ s.branch

namespace Scan

def use (s : Scan) (v : VarId) : Except Failure Unit :=
  if s.moved.contains v then .error (.breach .usedAfterMove v)
  else if !s.live.contains v then .error (.breach .readBeforeWrite v)
  else .ok ()

def take (s : Scan) (v : VarId) : Scan :=
  { s with moved := v :: s.moved, live := s.live.filter (· != v) }

/-- Takes the values of variables away, each of which must be there. -/
def takeHere : Scan → List VarId → Except Failure Scan
  | s, [] => .ok s
  | s, v :: rest => do
    s.use v
    takeHere { s.take v with movedHere := v :: s.movedHere } rest

/-- Writes variables, none of which was written before. -/
def write (position : Nat) : Scan → List VarId → Except Failure Scan
  | s, [] => .ok s
  | s, v :: rest =>
    if s.live.contains v || s.moved.contains v then .error (.breach .writtenTwice v)
    else write position
      { s with live := v :: s.live, written := s.written ++ [(v, position)] } rest

end Scan

/-- The variables that the branches of an instruction use, and those they consume. -/
def branchUsage? (vs : Variables) : Instr → Option OuterUsage
  | .cond _ _ yes no => do
    let y ← outerUsage? vs yes
    let n ← outerUsage? vs no
    return ⟨distinct (y.uses ++ n.uses), distinct (y.moves ++ n.moves)⟩
  | _ => some ⟨[], []⟩

def scanInstr (vs : Variables) (position : Nat) (s : Scan) (i : Instr) :
    Except Failure (Step × Scan) := do
  let some u := usage? vs i | .error .missingVariable
  let some b := branchUsage? vs i | .error .missingVariable
  u.reads.forM s.use
  b.uses.forM s.use
  let taken ← s.takeHere u.moves
  let after ← (b.moves.foldl Scan.take taken).write position u.writes
  return (⟨i, u, b.uses, s.live⟩, after)

def scanBlock (vs : Variables) : Nat → Scan → Block → Except Failure (List Step × Scan)
  | _, s, [] => .ok ([], s)
  | position, s, i :: rest => do
    let (step, s) ← scanInstr vs position s i
    let (steps, s) ← scanBlock vs (position + 1) s rest
    return (step :: steps, s)

/-- The position of the last step that uses a variable, where the first is at `position`. -/
def lastUse? (v : VarId) : Nat → List Step → Option Nat
  | _, [] => none
  | position, s :: rest =>
    match lastUse? v (position + 1) rest with
    | some i => some i
    | none => if s.uses.contains v then some position else none

/-- Where values are destroyed, and which are left to branches. -/
structure Plan where
  /-- Variables to destroy right before the instruction at a position. -/
  destroys : List (Nat × VarId) := []
  /-- Variables that the branches of the instruction at a position have to destroy. -/
  handed : List (Nat × VarId) := []

namespace Plan

def destroysAt (p : Plan) (k : Nat) : List VarId :=
  (p.destroys.filter (·.1 == k)).map (·.2)

/-- The variables left to the branches at a position. -/
def handedAt (p : Plan) (k : Nat) : List VarId := (p.handed.filter (·.1 == k)).map (·.2)

def destroy (p : Plan) (k : Nat) (v : VarId) : Plan := { p with destroys := p.destroys ++ [(k, v)] }

def hand (p : Plan) (k : Nat) (v : VarId) : Plan := { p with handed := p.handed ++ [(k, v)] }

/-- The last position before which a value described by `w` is destroyed. -/
def lastDescribed? (vs : Variables) (p : Plan) (w : VarId) : Option Nat :=
  ((p.destroys.filter fun d => describedBy? vs d.2 == some w).map (·.1)).max?

end Plan

/-- Whether the branches at a position use a variable. -/
def usedInBranch (steps : List Step) (v : VarId) (k : Nat) : Bool :=
  match steps[k]? with
  | some s => s.branch.contains v
  | none => false

/-- Where an unused variable dies: behind its write, or at the start of the block. -/
def deadAt (s : Scan) (v : VarId) : Nat :=
  match s.written.lookup v with
  | some k => k + 1
  | none => 0

/-- Plans the end of a value that is not a type description. -/
def planValue (steps : List Step) (s : Scan) (p : Plan) (v : VarId) : Plan :=
  match lastUse? v 0 steps with
  | none => p.destroy (deadAt s v) v
  | some i => if usedInBranch steps v i then p.hand i v else p.destroy (i + 1) v

/-- Whether the destination of the instruction at a position is described by `w`. -/
def describesResult (vs : Variables) (steps : List Step) (w : VarId) (k : Nat) : Bool :=
  match steps[k]? with
  | some ⟨.cond dst _ _ _, _, _, _⟩ => describedBy? vs dst == some w
  | _ => false

/-- Plans the end of a type description, behind the values it describes. -/
def planWitness (vs : Variables) (steps : List Step) (s : Scan) (p : Plan) (w : VarId) : Plan :=
  let described := p.lastDescribed? vs w
  match lastUse? w 0 steps with
  | none => p.destroy (max (deadAt s w) (described.getD 0)) w
  | some i =>
    if usedInBranch steps w i && decide (described.getD 0 ≤ i)
        && !describesResult vs steps w i then
      p.hand i w
    else p.destroy (max (i + 1) (described.getD 0)) w

def isWitness (vs : Variables) (v : VarId) : Bool :=
  match vs[v]? with
  | some x => x.witness.isType
  | none => false

def isTrivial (vs : Variables) (v : VarId) : Bool :=
  match vs[v]? with
  | some x => x.witness.isTrivial
  | none => false

/-- Plans where the values a block owns are destroyed: first values, then descriptions. -/
def plan (vs : Variables) (steps : List Step) (s : Scan) (keep handed : List VarId) : Plan :=
  let owned := (handed ++ s.written.map (·.1)).filter fun v =>
    !keep.contains v && !s.movedHere.contains v && !isTrivial vs v
  let (descriptions, values) := owned.partition (isWitness vs)
  descriptions.foldl (planWitness vs steps s) (values.foldl (planValue steps s) {})

/-- Counts a block: `avail` can be read at its start, `keep` must not be destroyed, and
`handed` is owned from the start. -/
abbrev Counter := (avail keep handed : List VarId) → Except Failure Block

def countStep (p : Plan) (keep : List VarId) (position : Nat) (s : Step)
    (branches : Option (Counter × Counter)) : Except Failure Instr :=
  match s.instr, branches with
  | .cond dst test _ _, some (countYes, countNo) => do
    let yes ← countYes s.entry (dst :: keep) (p.handedAt position)
    let no ← countNo s.entry (dst :: keep) (p.handedAt position)
    return .cond dst test yes no
  | i, _ => .ok i

/-- The instructions from a position on, each behind what is destroyed before it. -/
def assemble (p : Plan) (keep : List VarId) :
    Nat → List Step → List (Option (Counter × Counter)) → Except Failure Block
  | position, s :: steps, b :: branches => do
    let i ← countStep p keep position s b
    let rest ← assemble p keep (position + 1) steps branches
    return (p.destroysAt position).map Instr.destroy ++ i :: rest
  | position, _, _ => .ok ((p.destroysAt position).map Instr.destroy)

/-- Counts a block, given how to count the branches of each of its instructions. -/
def countWith (vs : Variables) (b : Block) (branches : List (Option (Counter × Counter))) :
    Counter := fun avail keep handed => do
  let (steps, s) ← scanBlock vs 0 { live := handed ++ avail } b
  assemble (plan vs steps s keep handed) keep 0 steps branches

mutual

def branchCounters (vs : Variables) : Instr → Option (Counter × Counter)
  | .cond _ _ yes no =>
    some (countWith vs yes (blockCounters vs yes), countWith vs no (blockCounters vs no))
  | _ => none

/-- How to count the branches of each instruction of a block. -/
def blockCounters (vs : Variables) : List Instr → List (Option (Counter × Counter))
  | [] => []
  | i :: rest => branchCounters vs i :: blockCounters vs rest

end

def countBlock (vs : Variables) (b : Block) : Counter := countWith vs b (blockCounters vs b)

/-- Adds the instructions that destroy what a function owns. Results belong to the caller,
and so do the other arguments, which are only read. -/
def countFunction (f : Function) : Except Failure Function := do
  let (outs, ins) := f.arguments.partition fun a => a.convention == .out
  let body ← countBlock f.vars f.body (ins.map (·.var)) (outs.map (·.var)) []
  return { f with body := body }

def Failure.error? (f : Function) : Failure → Option Error
  | .breach cause v => some ⟨cause, f.name, nameOf f.vars v⟩
  | .missingVariable => none

/-- Counts functions in order; the first failure ends the work. -/
def countFunctions : List Function → Except (Function × Failure) (List Function)
  | [] => .ok []
  | f :: rest => do
    match countFunction f with
    | .error e => .error (f, e)
    | .ok g => return g :: (← countFunctions rest)

def countProgram (p : Program) : Except (Function × Failure) Program :=
  return { p with functions := ← countFunctions p.functions }

end WitnessLang.Ownership
