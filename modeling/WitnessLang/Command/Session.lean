import WitnessLang.Build.Emit
import WitnessLang.Command.Flags
import WitnessLang.Command.Work
import WitnessLang.Diagnostic.Render

set_option autoImplicit false

namespace WitnessLang.Command

/-- What a command has printed so far, and its trace. -/
structure Session where
  output : Bytes := []
  errors : Bytes := []
  tracer : Trace.Tracer := .silent

inductive Stop where
  /-- Everything has been said. -/
  | failed
  | error (message : String)
  /-- The trees do not hang together. -/
  | crash

abbrev Run := ExceptT Stop (StateT Session Work)

namespace Run

def ofWork {α : Type} (w : Work α) : Run α := fun s => w.bind fun r => .done (.ok r, s)

def query (q : Query) : Run q.Reply := ofWork (Work.query q)

def fail {α : Type} (message : String) : Run α := throw (.error message)

def ofExcept {α : Type} (r : Except String α) : Run α :=
  match r with
  | .ok a => return a
  | .error m => fail m

/-- A result of work on files, or a stop with what was tried before the message. -/
def ofFiles {α : Type} (before : String) (r : Except FileError α) : Run α :=
  match r with
  | .ok a => return a
  | .error e => fail (before ++ e.message)

/-- Work that the tracer hears of, and a stop if it breaks down. -/
def traced {α : Type} (m : Build.Traced α) : Run α := do
  let (r, tracer) := m.run (← get).tracer
  modify fun s => { s with tracer }
  match r with
  | .ok a => return a
  | .error _ => throw .crash

def print (b : Bytes) : Run Unit := modify fun s => { s with output := s.output ++ b }

def printText (t : String) : Run Unit := print (Bytes.ofString t)

def complain (b : Bytes) : Run Unit := modify fun s => { s with errors := s.errors ++ b }

end Run

structure Settings where
  style : ReportStyle
  color : Bool
  notes : Bool
  quiet : Bool
  maxDiagnostics : Int

def commonFlags : List Flag := [
  { name := "color", default := .text "auto" },
  { name := "quiet", default := .switch false },
  { name := "timings", default := .switch false },
  { name := "max-diagnostics", default := .number 100 },
  { name := "diagnostics", default := .text "pretty" },
  { name := "with-notes", default := .switch true },
  { name := "trace", default := .text "" },
  { name := "trace-level", default := .text "off" },
  { name := "trace-mode", default := .text "stream" },
  { name := "trace-format", default := .text "auto" },
  { name := "trace-ring-size", default := .number 4096 },
  { name := "help", letter := some 'h', default := .switch false }]

namespace Settings

def read (a : Arguments) : Except String Settings := do
  let wish := a.text "color" "auto"
  let style ← ReportStyle.ofName (a.text "diagnostics" "pretty")
  if !(["auto", "on", "off"].contains wish) then
    throw ("invalid --color value " ++ Quoted.ofString wish ++ " (expected auto|on|off)")
  return { style, color := colorEnabled wish false, notes := a.switch "with-notes" true
           quiet := a.switch "quiet" false, maxDiagnostics := a.number "max-diagnostics" 100 }

def report (s : Settings) (files : FileSet) (bag : Bag) : Run Unit := do
  if bag.items.isEmpty then return
  let cwd ← Run.query .workingDirectory
  let bag := bag.sort
  let o : ReportOptions := { color := s.color, context := 1, notes := s.notes, cwd }
  match Report.render s.style o files bag with
  | some text => Run.complain text
  | none => throw .crash

def status (s : Settings) (line : String) : Run Unit := do
  if !s.quiet then Run.printText (line ++ "\n")

end Settings

def load (path : String) : Run (FileSet × SourceFile) := do
  let raw ← Run.ofFiles ("load " ++ path ++ ": ") (← Run.query (.read path))
  return Build.loadFile path raw

def compile (o : Build.Options) (path : String) : Run Build.Outcome := do
  let (files, file) ← load path
  Run.traced (Build.compileFileIn o 0 files file)

def treeText (r : Build.Outcome) (st : Build.Stage) (format : Build.TreeFormat) : Run String :=
  match r.emit st format with
  | .ok text => return text
  | .error e =>
    match e.message? with
    | some m => Run.fail m
    | none => throw .crash

end WitnessLang.Command
