import WitnessLang.Command.Build
import WitnessLang.Command.Check
import WitnessLang.Command.Session
import WitnessLang.Format.Ansi

set_option autoImplicit false

namespace WitnessLang.Version

/-- A text up to the first point and behind it, if it has one. -/
def cutAtPoint : List Char → Option (List Char × List Char)
  | [] => none
  | c :: rest =>
    if c == '.' then some ([], rest)
    else (cutAtPoint rest).map fun p => (c :: p.1, p.2)

/-- Major, minor and patch number, and what follows them from the first minus or plus sign. -/
def parts? (v : String) : Option (List Char × List Char × List Char × List Char) := do
  let (major, rest) ← cutAtPoint v.toList
  let (minor, rest) ← cutAtPoint rest
  let plain := fun c => c != '-' && c != '+'
  return (major, minor, rest.takeWhile plain, rest.dropWhile plain)

/-- A version with its three numbers in different colours; one that has no three numbers is
left as it is. -/
def render (color : Bool) (v : String) : Bytes :=
  match parts? v with
  | none => Bytes.ofString v
  | some (major, minor, patch, rest) =>
    let text (cs : List Char) := Bytes.ofString (String.ofList cs)
    Ansi.paint color [.yellow, .bold] (text major) ++ text ['.']
      ++ Ansi.paint color [.green, .bold] (text minor) ++ text ['.']
      ++ Ansi.paint color [.blue, .bold] (text patch) ++ text rest

end WitnessLang.Version

namespace WitnessLang.Command

structure TraceRequest where
  tracer : Trace.Tracer
  storage : Trace.Storage
  format : Trace.Format
  /-- The file it goes to; a dash or nothing stands for where errors go. -/
  path : String

def TraceRequest.toErrors (t : TraceRequest) : Bool := t.path.isEmpty || t.path == "-"

/-- Reads what is asked for, if a trace is asked for at all. A file without a level asks for
stages. -/
def TraceRequest.read (a : Arguments) : Except String (Option TraceRequest) := do
  let path := a.text "trace" ""
  let level ← match Trace.Level.ofName (a.text "trace-level" "off") with
    | .ok l => pure l
    | .error e => throw ("invalid trace level: " ++ e)
  let level := if level = .off ∧ !path.isEmpty ∧ !a.has "trace-level" then .phase else level
  if level = .off then return none
  let storage ← Trace.Storage.ofName (a.text "trace-mode" "stream")
  let format ← Trace.Format.ofName (a.text "trace-format" "auto")
  let tracer ← Trace.Tracer.new level storage format path (a.number "trace-ring-size" 4096) ""
  return some { tracer, storage, format, path }

/-- Starts a trace. A trace that is written as it goes needs its file at once. -/
def startTrace (t : TraceRequest) : Run Unit := do
  if t.storage ≠ .ring ∧ !t.toErrors then
    let r ← Run.query (.write t.path [])
    Run.ofFiles "failed to create tracer: failed to open trace output: " r
  modify fun s => { s with tracer := t.tracer }

def finishTrace (t : TraceRequest) : StateT Session Work Unit := do
  let tracer := (← get).tracer
  let format := if t.format = .automatic then .text else t.format
  let text :=
    if t.storage = .ring then String.join (tracer.events.map (·.render format)) else tracer.written
  let complain (m : String) : StateT Session Work Unit :=
    modify fun s => { s with errors := s.errors ++ Bytes.ofString m }
  if t.toErrors then complain text
  else
    let write := Work.query (.write t.path (Bytes.ofString text))
    match (← (monadLift write : StateT Session Work (Except FileError Unit))) with
    | .ok _ => return
    | .error e => complain ("trace: dump error: " ++ e.message ++ "\n")

inductive Verb where
  | tokenize | parse | check | build | version
  deriving DecidableEq, Repr

namespace Verb

def all : List Verb := [.tokenize, .parse, .check, .build, .version]

def name : Verb → String
  | .tokenize => "tokenize"
  | .parse => "parse"
  | .check => "check"
  | .build => "build"
  | .version => "version"

def flags : Verb → List Flag
  | .tokenize => [{ name := "format", default := .text "pretty" }]
  | .parse => []
  | .check => [
      { name := "stop-after", default := .text "" },
      { name := "emit", default := .text "" },
      { name := "format", default := .text "text" },
      { name := "emit-on-error", default := .switch false },
      { name := "ptr-size", default := .number 0 }]
  | .build => [
      { name := "jobs", default := .number 0 },
      { name := "ui", default := .text "auto" },
      { name := "disk-cache", default := .switch false },
      { name := "format", default := .text "text" },
      { name := "output", letter := some 'o', default := .text "" },
      { name := "stop-after", default := .text "" },
      { name := "ptr-size", default := .number 0 }]
  | .version => [
      { name := "hash", default := .switch false },
      { name := "date", default := .switch false },
      { name := "full", default := .switch false },
      { name := "format", default := .text "pretty" }]

def countFault? (v : Verb) (n : Nat) : Option String :=
  match v with
  | .tokenize | .parse | .check =>
    if n = 1 then none else some ("accepts 1 arg(s), received " ++ toString n)
  | .build => if n ≤ 1 then none else some ("accepts at most 1 arg(s), received " ++ toString n)
  | .version => none

end Verb

def version (a : Arguments) : Run Unit := do
  let format := a.text "format" "pretty"
  let hash := a.switch "hash" false || a.switch "full" false
  let date := a.switch "date" false || a.switch "full" false
  match Case.lower format with
  | "json" =>
    let facts := [("tool", Json.str "keel"), ("version", .str Build.version)]
      ++ (if hash then [("git_commit", .str "unknown")] else [])
      ++ (if date then [("build_date", .str "unknown")] else [])
    Run.printText (Json.object facts).document
  | "pretty" =>
    let color := colorEnabled (a.text "color" "auto") false
    Run.print (Bytes.ofString "keel " ++ Version.render color Build.version ++ [10])
    if hash then Run.printText "commit: unknown\n"
    if date then Run.printText "built:  unknown\n"
  | _ => Run.fail ("unsupported format " ++ Quoted.ofString format ++ " (must be pretty or json)")

def perform (v : Verb) (a : Arguments) : Run Unit :=
  match v, a.plain with
  | .tokenize, path :: _ => tokenize a path
  | .parse, path :: _ => parse a path
  | .check, path :: _ => check a path
  | .build, _ => build a
  | .version, _ => version a
  | _, [] => Run.fail "accepts 1 arg(s), received 0"

/-- Whether an argument is a flag whose value is the next argument. A flag that nobody knows is
taken to have a value; a letter is one of ASCII. -/
def takesNext (flags : List Flag) (arg : String) : Bool :=
  if arg.contains '=' then false
  else match arg.toList with
    | '-' :: '-' :: name =>
      !(flags.any fun f => f.name == String.ofList name && f.isSwitch)
    | ['-', c] => decide (c.toNat < 0x80) && !(flags.any fun f => f.letter == some c && f.isSwitch)
    | _ => false

/-- The arguments up to the first that is no flag and no value of one, that one, and those behind
it. -/
def splitAtWord (flags : List Flag) : List String → List String →
    Option (List String × String × List String)
  | _, [] => none
  | before, arg :: rest =>
    if arg == "--" then none
    else if takesNext flags arg then
      match rest with
      | value :: next :: more => splitAtWord flags (before ++ [arg, value]) (next :: more)
      | _ => none
    else if arg.startsWith "-" || arg.isEmpty then splitAtWord flags (before ++ [arg]) rest
    else some (before, arg, rest)

/-- One row of the table of edit distances, from the row before it. -/
def editRow (c : UInt8) : Nat → Nat → Bytes → List Nat → List Nat
  | diagonal, left, d :: ds, up :: ups =>
    let cost := min (min (up + 1) (left + 1)) (if c == d then diagonal else diagonal + 1)
    cost :: editRow c up cost ds ups
  | _, _, _, _ => []

/-- How many bytes must be changed, added or dropped to make one word from another. -/
def editDistance (a b : Bytes) : Nat :=
  let step (row : List Nat) (c : UInt8) : List Nat :=
    let first := row.headD 0
    (first + 1) :: editRow c first (first + 1) b row.tail
  (a.foldl step (List.range (b.length + 1))).getLastD 0

/-- The commands that a word may have been meant for. -/
def suggestions (word : String) : List String :=
  let w := Bytes.ofString (Case.lower word)
  (Verb.all.map Verb.name ++ ["completion"]).filter fun name =>
    decide (editDistance w (Bytes.ofString name) ≤ 2) || w.isPrefixOf (Bytes.ofString name)

def unknownCommand (word : String) : String :=
  let names := suggestions word
  "unknown command " ++ Quoted.ofString word ++ " for \"keel\""
    ++ (if names.isEmpty then "" else "\n\nDid you mean this?\n"
      ++ String.join (names.map fun n => "\t" ++ n ++ "\n"))

structure Answer where
  exit : Nat
  output : Bytes
  errors : Bytes
  deriving Repr

def Answer.refusal (message : String) : Answer :=
  ⟨1, [], Bytes.ofString ("keel: " ++ message ++ "\n")⟩

def Answer.ofEnd (s : Session) : Except Stop Unit → Answer
  | .ok _ => ⟨0, s.output, s.errors⟩
  | .error .failed => ⟨1, s.output, s.errors⟩
  | .error (.error m) => ⟨1, s.output, s.errors ++ Bytes.ofString ("keel: " ++ m ++ "\n")⟩
  | .error .crash => ⟨2, s.output, s.errors⟩

def usage : String :=
  "keel checks and lowers keel source files down to the refcounted IR\n\nUsage:\n  keel [command]\n"

def execute (v : Verb) (a : Arguments) : Work Answer := do
  match v.countFault? a.plain.length with
  | some m => return Answer.refusal m
  | none =>
    match TraceRequest.read a with
    | .error m => return Answer.refusal m
    | .ok none =>
      let (r, s) ← (perform v a).run {}
      return Answer.ofEnd s r
    | .ok (some t) =>
      match ← (startTrace t).run {} with
      | (.error e, s) => return Answer.ofEnd s (.error e)
      | (.ok _, s) =>
        let (r, s) ← (perform v a).run s
        let (_, s) ← (finishTrace t).run s
        return Answer.ofEnd s r

def run (args : List String) : Work Answer := do
  let common := commonFlags.filter fun f => f.name != "help"
  match splitAtWord common [] args with
  | none =>
    let flags := { name := "version", letter := some 'v', default := .switch false } :: commonFlags
    match readArguments flags args.length {} args with
    | .error e => return Answer.refusal e.message
    | .ok a =>
      if !a.switch "help" false && a.switch "version" false then
        return ⟨0, Bytes.ofString ("keel version " ++ Build.version ++ "\n"), []⟩
      else return ⟨0, Bytes.ofString usage, []⟩
  | some (before, word, rest) =>
    match Verb.all.find? fun v => v.name == word with
    | none =>
      if word == "help" || word == "completion" then return ⟨0, Bytes.ofString usage, []⟩
      else return Answer.refusal (unknownCommand word)
    | some v =>
      let args := before ++ rest
      match readArguments (commonFlags ++ v.flags) args.length {} args with
      | .error e => return Answer.refusal e.message
      | .ok a =>
        if a.switch "help" false then return ⟨0, Bytes.ofString usage, []⟩ else execute v a

end WitnessLang.Command
