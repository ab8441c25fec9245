import WitnessLang.Build.Pipeline

set_option autoImplicit false

namespace WitnessLang.Build

structure StructSummary where
  name : String
  size : String
  deriving DecidableEq, Repr

/-- A function with the size of its frame and numbers of instructions. -/
structure FunctionSummary where
  name : String
  isClosure : Bool
  frame : String
  instructions : Nat
  destroys : Nat
  deriving DecidableEq, Repr

structure FindingSummary where
  code : Nat
  message : Bytes
  start : Nat
  stop : Nat
  deriving DecidableEq, Repr

structure Summary where
  path : String
  reached : Option Stage
  failed : Bool
  structs : List StructSummary
  functions : List FunctionSummary
  findings : List FindingSummary
  deriving DecidableEq, Repr

def isDestroy : Ir.Instr → Bool
  | .destroy _ => true
  | _ => false

def summarizeFunction (f : Ir.Function) : FunctionSummary :=
  let instrs := Ir.Instr.flattenAll f.body
  ⟨f.name, f.isClosure, f.frame.size.render, instrs.length, (instrs.filter isDestroy).length⟩

def summarizeFinding (d : Diagnostic) : FindingSummary :=
  ⟨d.code.number, d.message, d.span.start, d.span.stop⟩

/-- The summary of a file: of its counted program, or of the lowered one if there is no other. -/
def Outcome.summary (r : Outcome) : Summary :=
  let program := r.trees.counted <|> r.trees.lowered
  { path := r.path
    reached := r.reached
    failed := r.failed
    structs := (program.map fun p => p.structs.map fun s =>
      StructSummary.mk s.name s.layout.size.render).getD []
    functions := (program.map fun p => p.functions.map summarizeFunction).getD []
    findings := r.bag.items.map summarizeFinding }

def version : String := "0.1.0-dev"

/-- What a summary is kept under: bytes of which a digest is taken. Different bytes are taken to have different
digests. -/
structure CacheKey where
  bytes : Bytes
  deriving DecidableEq, Repr

/-- The key of a text under some wishes: the text and the wishes that shape the trees, with zeros in between. -/
def CacheKey.of (o : Options) (content : Bytes) : CacheKey :=
  let wishes := [o.target.triple, o.stop.name, toString o.unit, version]
  ⟨content ++ wishes.flatMap fun s => 0 :: Bytes.ofString s⟩

abbrev Cache := List (CacheKey × Summary)

namespace Cache

def get? (c : Cache) (k : CacheKey) : Option Summary := c.lookup k

/-- Keeps a summary; one kept before under the same key is replaced. -/
def put (c : Cache) (k : CacheKey) (s : Summary) : Cache := (k, s) :: c.filter fun e => e.1 != k

end Cache

end WitnessLang.Build
