import WitnessLang.Build.Stage
import WitnessLang.Format.Toml.Document
import WitnessLang.Layout.Frame
import WitnessLang.Text.Case
import WitnessLang.Text.Trim
import WitnessLang.Text.Utf8

set_option autoImplicit false

namespace WitnessLang.Command

structure Manifest where
  name : String := ""
  /-- The file or directory to build. -/
  main : String := ""
  stopAfter : String := ""
  jobs : Int := 0
  pointerSize : Int := 0
  cache : Bool := false
  deriving DecidableEq, Repr

inductive ManifestFault where
  | unreadable (reason : String)
  | unknownKey (key : Toml.Key)
  | missing (what : String)
  | badStage (reason : String)
  | badPointerSize (reason : String)
  | negativeJobs
  deriving DecidableEq, Repr

def ManifestFault.message : ManifestFault → String
  | .unreadable reason => "failed to parse TOML: " ++ reason
  | .unknownKey k => "unknown key " ++ k.render
  | .missing what => "missing " ++ what
  | .badStage reason => "[build].stop_after: " ++ reason
  | .badPointerSize reason => "[build].ptr_size: " ++ reason
  | .negativeJobs => "[build].jobs must not be negative"

namespace Manifest

def fileName : String := "keel.toml"

def kindOf : Toml.Value → String
  | .scalar (.string _) => "string"
  | .scalar (.integer _) => "int64"
  | .scalar (.float _) => "float64"
  | .scalar (.boolean _) => "bool"
  | .scalar (.dateTime _) => "time.Time"
  | .array => "[]interface \x7b\x7d"
  | .table _ => "map[string]interface \x7b\x7d"
  | .tables _ => "[]map[string]interface \x7b\x7d"

structure Field where
  document : Toml.Document
  key : Toml.Key
  value : Toml.Value

namespace Field

def refuse {α : Type} (f : Field) (reason : String) : Except ManifestFault α :=
  .error (.unreadable (f.document.place f.key ++ reason))

def wrongKind {α : Type} (f : Field) (wanted : String) : Except ManifestFault α :=
  f.refuse ("incompatible types: TOML value has type " ++ kindOf f.value
    ++ "; destination has type " ++ wanted)

def text (f : Field) : Except ManifestFault String :=
  match f.value with
  | .scalar (.string s) => .ok s
  | _ => f.wrongKind "string"

def number (f : Field) : Except ManifestFault Int :=
  match f.value with
  | .scalar (.integer n) => .ok n
  | _ => f.wrongKind "integer"

def switch (f : Field) : Except ManifestFault Bool :=
  match f.value with
  | .scalar (.boolean b) => .ok b
  | _ => f.wrongKind "boolean"

/-- The fields of something that must be a table, known under a name of its own. -/
def fields (f : Field) (name : String) : Except ManifestFault (List Field) :=
  match f.value with
  | .table t => .ok (t.map fun e => ⟨f.document, f.key ++ [e.1], e.2⟩)
  | v => f.refuse ("type mismatch for main." ++ name ++ ": expected table but found " ++ kindOf v)

def name (f : Field) : String := Case.fold (f.key.getLastD "")

end Field

/-- A manifest on its way, with the keys that were understood. -/
structure Reading where
  manifest : Manifest := {}
  known : List Toml.Key := []

abbrev Taker := Reading → Field → Except ManifestFault Reading

/-- Changes the manifest for a field that was understood. -/
def Reading.accept (r : Reading) (f : Field) (change : Manifest → Manifest) : Reading :=
  ⟨change r.manifest, f.key :: r.known⟩

def takePackage : Taker := fun r f => do
  match f.name with
  | "name" => let s ← f.text; return r.accept f ({ · with name := s })
  | _ => return r

def takeBuild : Taker := fun r f => do
  match f.name with
  | "main" => let s ← f.text; return r.accept f ({ · with main := s })
  | "stop_after" => let s ← f.text; return r.accept f ({ · with stopAfter := s })
  | "jobs" => let n ← f.number; return r.accept f ({ · with jobs := n })
  | "ptr_size" => let n ← f.number; return r.accept f ({ · with pointerSize := n })
  | "cache" => let b ← f.switch; return r.accept f ({ · with cache := b })
  | _ => return r

def takePart : Taker := fun r f => do
  match f.name with
  | "package" => (← f.fields "packageConfig").foldlM takePackage (r.accept f id)
  | "build" => (← f.fields "buildConfig").foldlM takeBuild (r.accept f id)
  | _ => return r

/-- Whether a text under a key is more than white space. -/
def present (d : Toml.Document) (k : Toml.Key) (s : String) : Bool :=
  d.defines k && !(Trim.both s).isEmpty

/-- Reads a manifest. The first rule that is broken is reported. -/
def ofDocument (d : Toml.Document) : Except ManifestFault Manifest := do
  let parts := d.root.map fun e => (⟨d, [e.1], e.2⟩ : Field)
  let r ← parts.foldlM takePart {}
  let m := r.manifest
  if let some k := d.keys.find? fun k => !r.known.contains k then throw (.unknownKey k)
  if !d.defines ["package"] then throw (.missing "[package]")
  if !present d ["package", "name"] m.name then throw (.missing "[package].name")
  if !d.defines ["build"] then throw (.missing "[build]")
  if !present d ["build", "main"] m.main then throw (.missing "[build].main")
  if d.defines ["build", "stop_after"] then
    if let .error e := Build.Stage.requested m.stopAfter then throw (.badStage e)
  if d.defines ["build", "ptr_size"] then
    if let .error e := Target.ofPointerSize m.pointerSize then throw (.badPointerSize e)
  if m.jobs < 0 then throw .negativeJobs
  return m

def parse (content : Bytes) : Except ManifestFault Manifest :=
  match Utf8.string? (Toml.withoutMark content) with
  | none => .error (.unreadable "toml: invalid UTF-8")
  | some s =>
    match Toml.Document.parse s with
    | .ok d => ofDocument d
    | .error e => .error (.unreadable e.message)

end Manifest

end WitnessLang.Command
