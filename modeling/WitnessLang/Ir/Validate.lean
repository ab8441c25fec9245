import WitnessLang.Ir.Basic

set_option autoImplicit false

namespace WitnessLang.Ir

def joinLines (messages : List String) : String := "\n".intercalate messages

inductive InstrProblem where
  | missingOperand
  | missingLocation (name : String)
  | destroysTrivial (name : String)
  /-- The first argument of a call must receive the result. -/
  | noResult
  /-- No other argument may. -/
  | manyResults
  deriving DecidableEq, Repr

def InstrProblem.message : InstrProblem → String
  | .missingOperand => "nil operand"
  | .missingLocation name => name ++ ": dynamic witness without location"
  | .destroysTrivial name => "destroy of trivial " ++ name
  | .noResult => "call without out result"
  | .manyResults => "more than one out argument"

inductive FunctionProblem where
  /-- The first argument must receive the result. -/
  | noResult
  | repeatedName (name : String)
  | unplacedLocal (name : String)
  | instruction (kind : String) (problems : List InstrProblem)
  deriving DecidableEq, Repr

def FunctionProblem.message : FunctionProblem → String
  | .noResult => "first argument must be the out result"
  | .repeatedName name => "duplicate variable " ++ name
  | .unplacedLocal name => "local " ++ name ++ " has no frame slot"
  | .instruction kind problems => kind ++ ": " ++ joinLines (problems.map (·.message))

inductive Problem where
  | repeatedFunction (name : String)
  | malformed (function : String) (problems : List FunctionProblem)
  deriving DecidableEq, Repr

namespace Problem

def reason (problems : List FunctionProblem) : String := joinLines (problems.map (·.message))

def message : Problem → String
  | .repeatedFunction name => "function " ++ name ++ " defined twice"
  | .malformed function problems => "invalid IR in " ++ function ++ ": " ++ reason problems

end Problem

/-- What is wrong with a variable that an instruction mentions. -/
def operandProblem? (vs : Variables) (v : VarId) : Option InstrProblem :=
  match vs[v]? with
  | none => some .missingOperand
  | some x =>
    match x.witness.location? with
    | some l => if l < vs.size then none else some (.missingLocation x.name)
    | none => none

def callProblem? : List CallArg → Option InstrProblem
  | [] => some .noResult
  | a :: rest =>
    if a.convention ≠ .out then some .noResult
    else if rest.any (·.convention == .out) then some .manyResults
    else none

/-- What is wrong with an instruction besides its operands. -/
def shapeProblem? (vs : Variables) : Instr → Option InstrProblem
  | .callDirect _ args | .callClosure _ args => callProblem? args
  | .destroy v =>
    match vs[v]? with
    | some x => if x.witness.isTrivial then some (.destroysTrivial x.name) else none
    | none => none
  | _ => none

def Instr.problems (vs : Variables) (i : Instr) : List InstrProblem :=
  i.operands.filterMap (operandProblem? vs) ++ (shapeProblem? vs i).toList

def repeatedNames : List String → List String → List String
  | _, [] => []
  | before, n :: rest =>
    if before.contains n then n :: repeatedNames before rest
    else repeatedNames (n :: before) rest

/-- What is wrong with the locals, given the names before them. -/
def localProblems (frame : Frame) : List String → List String → List FunctionProblem
  | _, [] => []
  | before, n :: rest =>
    (if before.contains n then [.repeatedName n] else [])
      ++ (if (frame.offset? n).isNone then [.unplacedLocal n] else [])
      ++ localProblems frame (n :: before) rest

def bodyProblems (vs : Variables) (body : Block) : List FunctionProblem :=
  (Instr.flattenAll body).filterMap fun i =>
    match i.problems vs with
    | [] => none
    | ps => some (.instruction i.kindName ps)

/-- What is wrong with a function; nothing can be said if an argument or a local names no
variable. -/
def Function.problems (f : Function) : Option (List FunctionProblem) := do
  let arguments ← f.arguments.mapM fun a => (f.varAt? a.var).map (·.name)
  let locals ← f.locals.mapM fun v => (f.varAt? v).map (·.name)
  let first :=
    match f.arguments with
    | a :: _ => if a.convention = .out then [] else [FunctionProblem.noResult]
    | [] => [.noResult]
  return first
    ++ (repeatedNames [] arguments).map .repeatedName
    ++ localProblems f.frame arguments locals
    ++ bodyProblems f.vars f.body

/-- What is wrong with functions, given the names before them. -/
def functionProblems : List String → List Function → Option (List Problem)
  | _, [] => some []
  | before, f :: rest => do
    let own ← f.problems
    let others ← functionProblems (f.name :: before) rest
    return (if before.contains f.name then [.repeatedFunction f.name] else [])
      ++ (if own.isEmpty then [] else [.malformed f.name own])
      ++ others

def Program.problems (p : Program) : Option (List Problem) := functionProblems [] p.functions

end WitnessLang.Ir
