import WitnessLang.Command.Manifest
import WitnessLang.Command.Session

set_option autoImplicit false

namespace WitnessLang.Command

structure Project where
  path : String
  root : String
  manifest : Manifest

def upwards (dir : String) : List String :=
  (Path.ancestors dir ++ [dir]).reverse ++ (if dir == "/" then [] else ["/"])

/-- The first directory of several that has a manifest. -/
def findManifest : List String → Run (Option String)
  | [] => return none
  | dir :: rest => do
    let candidate := Path.join dir Manifest.fileName
    match ← Run.query (.stat candidate) with
    | .ok _ => return some candidate
    | .error e =>
      if e.fault = .missing then findManifest rest
      else Run.fail ("failed to stat " ++ Quoted.ofString candidate ++ ": " ++ e.message)

def findProject : Run (Option Project) := do
  match ← findManifest (upwards (← Run.query .workingDirectory)) with
  | none => return none
  | some path =>
    let refuse {α : Type} (fault : ManifestFault) : Run α := Run.fail (path ++ ": " ++ fault.message)
    match ← Run.query (.read path) with
    | .error e => refuse (.unreadable e.message)
    | .ok content =>
      match Manifest.parse content with
      | .ok manifest => return some { path, root := Path.parent path, manifest }
      | .error fault => refuse fault

/-- The file or directory that a project is built from. -/
def Project.main (p : Project) : Run String := do
  let path := Path.join p.root (Trim.both p.manifest.main)
  match ← Run.query (.stat path) with
  | .ok isDirectory =>
    if !isDirectory && Path.suffix path != Build.sourceSuffix then
      Run.fail (p.path ++ ": [build].main must be a " ++ Build.sourceSuffix ++ " file or directory")
    return path
  | .error e =>
    if e.fault = .missing then
      Run.fail (p.path ++ ": [build].main path does not exist: " ++ path)
    else Run.fail (p.path ++ ": failed to stat [build].main: " ++ e.message)

def noProject : String :=
  "no keel.toml found\nplease specify the input explicitly, e.g.:\n  keel build path/to/file.kl"

structure BuildRequest where
  input : String
  name : String
  stop : Build.Stage
  pointerSize : Int
  cache : Bool
  format : Build.TreeFormat
  /-- Where lowered programs are written to. -/
  output : String

def knownInterface (s : String) : Bool :=
  ["", "auto", "on", "off"].contains (Trim.both (Case.lower s))

/-- Reads what a build is to do: flags win over the manifest. -/
def BuildRequest.read (a : Arguments) : Run BuildRequest := do
  let project ← findProject
  let input ← match a.plain, project with
    | path :: _, _ => pure path
    | [], some p => p.main
    | [], none => Run.fail noProject
  let manifest := (project.map (·.manifest)).getD {}
  let stop ← Run.ofExcept (Build.Stage.requested (a.text "stop-after" manifest.stopAfter))
  let interface := a.text "ui" "auto"
  if !knownInterface interface then
    Run.fail ("invalid --ui value " ++ Quoted.ofString interface ++ " (expected auto|on|off)")
  let format ← Run.ofExcept (Build.TreeFormat.ofName (a.text "format" "text"))
  let output := a.text "output" ""
  if !output.isEmpty && stop.index < Build.Stage.lower.index then
    Run.fail ("-o needs the lowered program; --stop-after " ++ stop.name ++ " ends before lowering")
  return { input, name := manifest.name, stop, format, output
           pointerSize := a.number "ptr-size" manifest.pointerSize
           cache := a.switch "disk-cache" manifest.cache }

def BuildRequest.shown (q : BuildRequest) : String :=
  if q.name.isEmpty then Path.clean q.input else q.name

def writeTree (q : BuildRequest) (path : String) (r : Build.Outcome) : Run Unit := do
  Run.ofFiles "" (← Run.query (.makeDirectories (Path.parent path)))
  let text ← treeText r q.stop q.format
  Run.ofFiles ("failed to create " ++ path ++ ": ")
    (← Run.query (.write path (Bytes.ofString text)))

def buildFile (settings : Settings) (q : BuildRequest) (o : Build.Options) : Run Unit := do
  let r ← compile o q.input
  settings.report r.files r.bag
  if r.failed then throw .failed
  if !q.output.isEmpty then writeTree q q.output r
  settings.status ("built " ++ q.shown ++ " (" ++ Build.Stage.nameOf r.reached ++ ")")

/-- Reports what came of a file; of a file from the cache only its summary is known. -/
def reportBuilt (settings : Settings) (b : Build.Built) : Run Unit := do
  match b.outcome with
  | some r => settings.report r.files r.bag
  | none =>
    for d in b.summary.findings do
      Run.complain (Bytes.ofString (b.path ++ ": " ++ (Code.mk d.code).id ++ ": ") ++ d.message
        ++ Bytes.ofString " (cached)\n")
    if b.summary.findings.isEmpty then settings.status ("cached " ++ b.path)

def treeName (q : BuildRequest) (path : String) : String :=
  let stem := if path.endsWith Build.sourceSuffix then
    String.ofList (path.toList.take (path.length - Build.sourceSuffix.length)) else path
  match q.format with
  | .yaml => stem ++ ".yaml"
  | .text => stem ++ ".ir"

def buildDirectory (settings : Settings) (q : BuildRequest) (o : Build.Options) : Run Unit := do
  -- lowered programs can only be written from trees, which the cache does not keep
  let cached := q.cache && q.output.isEmpty
  let paths ← Run.ofFiles "" (← Run.query (.sources q.input))
  if paths.isEmpty then
    Run.fail ("no " ++ Build.sourceSuffix ++ " files under " ++ q.input)
  let found ← Run.ofWork (Work.readAll paths)
  let cache ← if cached then some <$> Run.query .loadCache else pure none
  let (bs, cache) ← Run.traced (Build.buildDirectory o q.input cache found)
  if let some c := cache then Run.query (.saveCache c)
  for b in bs do
    reportBuilt settings b
    if !q.output.isEmpty && !b.summary.failed then
      if let some r := b.outcome then
        match Path.relative? q.input b.path with
        | some rest => writeTree q (Path.join q.output (treeName q rest)) r
        | none => Run.fail ("Rel: can't make " ++ b.path ++ " relative to " ++ q.input)
  let failed := (bs.filter (·.summary.failed)).length
  if 0 < failed then
    settings.status (toString failed ++ " of " ++ toString bs.length ++ " files failed")
    throw .failed
  settings.status ("built " ++ toString bs.length ++ " files")

def build (a : Arguments) : Run Unit := do
  let settings ← Run.ofExcept (Settings.read a)
  let q ← BuildRequest.read a
  let target ← Run.ofExcept (Target.ofPointerSize q.pointerSize)
  let o : Build.Options := { stop := q.stop, target, maxDiagnostics := settings.maxDiagnostics }
  let isDirectory ← Run.ofFiles ("failed to stat " ++ q.input ++ ": ") (← Run.query (.stat q.input))
  if isDirectory then buildDirectory settings q o else buildFile settings q o

end WitnessLang.Command
