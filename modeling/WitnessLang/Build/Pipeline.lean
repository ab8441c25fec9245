import WitnessLang.Build.Failure
import WitnessLang.Build.Stage
import WitnessLang.Explicit.Pass
import WitnessLang.Resolved.Resolve
import WitnessLang.Sized.Measure
import WitnessLang.Source.File
import WitnessLang.Surface.Parser
import WitnessLang.Token.Lexer
import WitnessLang.Trace.Tracer
import WitnessLang.Typed.Infer

set_option autoImplicit false

namespace WitnessLang.Build

structure Options where
  /-- The last stage to run. -/
  stop : Stage := .count
  target : Target := Target.wide
  /-- The module that the names of the file belong to. -/
  unit : Nat := 1
  /-- How many findings are kept; numbers that are not positive stand for the default. -/
  maxDiagnostics : Int := 0
  /-- Whether the work is called off before it starts. -/
  cancelled : Bool := false
  deriving Inhabited

/-- The same wishes for the names of a module; zero stands for the default. -/
def Options.forUnit (o : Options) (unit : Nat) : Options := if unit = 0 then o else { o with unit }

structure Trees where
  surface : Option Surface.File := none
  table : SymbolTable := .start
  resolved : Option Resolved.Program := none
  typed : Option Typed.Program := none
  explicit : Option Explicit.Program := none
  sized : Option Sized.Program := none
  lowered : Option Ir.Program := none
  counted : Option Ir.Program := none

structure StageResult where
  trees : Trees
  /-- Findings made on the way. -/
  findings : List Diagnostic := []
  failure : Option Failure := none

abbrev Traced (α : Type) := ExceptT Crash (StateM Trace.Tracer) α

def Traced.quietly {α : Type} (m : Traced α) : Except Crash α := (m.run .silent).1

def parse (file : SourceFile) (t : Trees) : Except Crash StageResult :=
  match file.scan with
  | .error message => .error ⟨some message⟩
  | .ok (_, findings) =>
    let r := Surface.read file
    .ok { trees := { t with
            surface := some r.file
            table := (r.namesMet file).foldl SymbolTable.intern t.table }
          findings
          failure := match r.error with
            | some e => some (.parsing e)
            | none => if findings.isEmpty then none else some .reported }

def resolve (unit : Nat) (t : Trees) : StageResult :=
  match t.surface with
  | none => { trees := t }
  | some file =>
    match Resolved.resolve file t.table unit with
    | (.ok p, table) => { trees := { t with resolved := some p, table := table } }
    | (.error e, table) => { trees := { t with table := table }, failure := some (.resolving e) }

def check (t : Trees) : StageResult :=
  match t.resolved with
  | none => { trees := t }
  | some p =>
    match Typed.check p with
    | .ok p => { trees := { t with typed := some p } }
    | .error e => { trees := t, failure := some (.checking e) }

/-- Makes the type arguments of the typed tree explicit. -/
def pass (t : Trees) : StageResult := { trees := { t with explicit := t.typed.map Explicit.pass } }

def measure (target : Target) (t : Trees) : Except Crash StageResult :=
  match t.explicit with
  | none => .ok { trees := t }
  | some p =>
    match Sized.measure p target with
    | .ok p => .ok { trees := { t with sized := some p } }
    | .error (.error e) => .ok { trees := t, failure := some (.measuring e) }
    | .error (.inconsistent message) => .error ⟨some message⟩
    | .error .endless => .error ⟨none⟩

/-- Lowers the measured tree and checks the form of the result. -/
def lower (t : Trees) : Except Crash StageResult :=
  match t.sized with
  | none => .ok { trees := t }
  | some p =>
    match Ir.lower p with
    | .error (.layout name e) => .ok { trees := t, failure := some (.layout name e) }
    | .error (.inconsistent message) => .error ⟨some message⟩
    | .ok p =>
      match p.problems with
      | some [] => .ok { trees := { t with lowered := some p } }
      | some problems => .ok { trees := t, failure := some (.malformed problems) }
      | none => .error ⟨none⟩

/-- Counts a function, which breaks down at a variable that does not exist. -/
def countOne (around : Nat) (f : Ir.Function) : Traced (Except Ownership.Error Ir.Function) := do
  let (_, span) ← Trace.start around .function ("refcount:" ++ f.name)
  match Ownership.countFunction f with
  | .ok g =>
    Trace.finish span ""
    return .ok g
  | .error e =>
    match e.error? f with
    | none => throw ⟨none⟩
    | some e =>
      Trace.finish span "error"
      return .error e

/-- Counts the lowered functions, all of them even if some fail. The first failure is the one that is told. -/
def countIn (around : Nat) (t : Trees) : Traced StageResult :=
  match t.lowered with
  | none => return { trees := t }
  | some p => do
    let results ← p.functions.mapM (countOne around)
    match results.mapM id with
    | .ok functions => return { trees := { t with counted := some { p with functions } } }
    | .error e => return { trees := t, failure := some (.counting e) }

def runStageIn (o : Options) (file : SourceFile) (around : Nat) (t : Trees) : Stage → Traced StageResult
  | .parse => MonadExcept.ofExcept (parse file t)
  | .resolve => return resolve o.unit t
  | .check => return check t
  | .pass => return pass t
  | .measure => MonadExcept.ofExcept (measure o.target t)
  | .lower => MonadExcept.ofExcept (lower t)
  | .count => countIn around t

structure Phase where
  name : String
  note : String
  deriving DecidableEq, Repr

structure Outcome where
  path : String
  files : FileSet
  file : SourceFile
  trees : Trees := {}
  /-- The last stage that succeeded. -/
  reached : Option Stage := none
  bag : Bag
  events : List Event := []
  phases : List Phase := []

namespace Outcome

def failed (r : Outcome) : Bool := r.bag.hasErrors

def report (r : Outcome) (f : Failure) : Outcome :=
  let functions := (r.trees.lowered.map (·.functions)).getD []
  match f.diagnostic? functions with
  | some d => { r with bag := r.bag.add d }
  | none => r

def announce (r : Outcome) (st : Stage) : Outcome :=
  { r with events := r.events ++ [⟨r.path, some st, .working, none⟩] }

def afterStage (r : Outcome) (st : Stage) (s : StageResult) : Outcome :=
  let phase : Phase := ⟨st.name, if s.failure.isNone then r.path else r.path ++ ": failed"⟩
  let r : Outcome := { r with
    trees := s.trees
    bag := r.bag.addAll s.findings
    phases := r.phases ++ [phase] }
  match s.failure with
  | some f => r.report f
  | none => { r with reached := some st }

def conclude (r : Outcome) : Outcome :=
  { r with events := r.events ++ [⟨r.path, r.reached, if r.failed then .failed else .done, none⟩] }

end Outcome

/-- Runs stages in order until one fails or the last one asked for is reached. -/
def runStagesIn (o : Options) (around : Nat) : List Stage → Outcome → Traced Outcome
  | [], r => return r
  | st :: rest, r =>
    if o.cancelled then return r.report .cancelled
    else do
      let r := r.announce st
      let (inner, span) ← Trace.start around .stage st.name
      let s ← runStageIn o r.file inner r.trees st
      let r := r.afterStage st s
      if s.failure.isSome then
        Trace.finish span "error"
        return r
      Trace.finish span "ok"
      if st = o.stop then return r else runStagesIn o around rest r

def beginning (o : Options) (files : FileSet) (file : SourceFile) : Outcome :=
  { path := file.path, files, file, bag := Bag.ofLimit o.maxDiagnostics }

/-- Takes a file of a set through the stages, inside a piece of work. -/
def compileFileIn (o : Options) (around : Nat) (files : FileSet) (file : SourceFile) : Traced Outcome := do
  let (inner, span) ← Trace.start around .whole ("compile:" ++ file.path)
  let r ← runStagesIn o inner Stage.all (beginning o files file)
  let span := span.map fun s =>
    (s.withFact "reached" (Stage.nameOf r.reached)).withFact "diagnostics" (toString r.bag.items.length)
  Trace.finish span (if r.failed then "error" else "done")
  return r.conclude

def compileFile (o : Options) (files : FileSet) (file : SourceFile) : Except Crash Outcome :=
  (compileFileIn o 0 files file).quietly

/-- Takes a text through the stages, inside a piece of work. -/
def compileSourceIn (o : Options) (around : Nat) (name : String) (content : Bytes) : Traced Outcome :=
  compileFileIn o around (FileSet.add {} name content .memory) ⟨0, Path.clean name, content, .memory⟩

def compileSource (o : Options) (name : String) (content : Bytes) : Except Crash Outcome :=
  (compileSourceIn o 0 name content).quietly

end WitnessLang.Build
