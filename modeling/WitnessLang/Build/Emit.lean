import WitnessLang.Build.Pipeline
import WitnessLang.Explicit.Tree
import WitnessLang.Ir.Printer
import WitnessLang.Ir.Yaml
import WitnessLang.Resolved.Tree
import WitnessLang.Sized.Tree
import WitnessLang.Surface.Tree
import WitnessLang.Typed.Tree

set_option autoImplicit false

namespace WitnessLang.Build

inductive TreeFormat where
  | text | yaml
  deriving DecidableEq, Repr, Inhabited

namespace TreeFormat

def name : TreeFormat → String
  | .text => "text"
  | .yaml => "yaml"

def ofName (s : String) : Except String TreeFormat :=
  if s.isEmpty || s == "text" then .ok .text
  else if s == "yaml" then .ok .yaml
  else .error ("unknown format " ++ Quoted.ofString s ++ " (expected text|yaml)")

end TreeFormat

inductive EmitError where
  | notBuilt (stage : Stage)
  /-- Only lowered programs have this form. -/
  | noDocument (stage : Stage)
  /-- A struct has fields that its layout does not know. -/
  | unplaced
  deriving DecidableEq, Repr

def EmitError.message? : EmitError → Option String
  | .notBuilt st => some (st.name ++ ": tree was not built")
  | .noDocument st =>
    some ("yaml output is only available for lowered programs, not " ++ st.name)
  | .unplaced => none

def written {α : Type} (st : Stage) (render : α → Option String) :
    Option α → Except EmitError String
  | none => .error (.notBuilt st)
  | some a =>
    match render a with
    | some s => .ok s
    | none => .error .unplaced

def Outcome.emitText (r : Outcome) (st : Stage) : Except EmitError String :=
  match st with
  | .parse => written st (fun f => some (Surface.File.render f)) r.trees.surface
  | .resolve => written st (fun p => some (Resolved.Program.render p)) r.trees.resolved
  | .check => written st (fun p => some (Typed.Program.render p)) r.trees.typed
  | .pass => written st (fun p => some (Explicit.Program.render p)) r.trees.explicit
  | .measure => written st (fun p => some (Sized.Program.render p)) r.trees.sized
  | .lower => written st Ir.Program.render? r.trees.lowered
  | .count => written st Ir.Program.render? r.trees.counted

def Outcome.emitYaml (r : Outcome) (st : Stage) : Except EmitError String :=
  match st with
  | .lower => written st Ir.Program.yaml? r.trees.lowered
  | .count => written st Ir.Program.yaml? r.trees.counted
  | _ => .error (.noDocument st)

def Outcome.emit (r : Outcome) (st : Stage) : TreeFormat → Except EmitError String
  | .text => r.emitText st
  | .yaml => r.emitYaml st

end WitnessLang.Build
