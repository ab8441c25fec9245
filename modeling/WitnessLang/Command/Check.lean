import WitnessLang.Command.Session
import WitnessLang.Format.Json
import WitnessLang.Text.Trim
import WitnessLang.Token.Lexer

set_option autoImplicit false

namespace WitnessLang.Token

def placeText (p : Position) : String := toString p.line ++ ":" ++ toString p.column

def listingLine (fs : FileSet) (number : Nat) (t : Token) : String :=
  let (start, stop) := fs.resolve t.span
  Pad.left 3 (toString number) ++ ": " ++ Pad.right 15 t.kind.name
    ++ (if t.text == "" then "" else " " ++ Quoted.ofString t.text)
    ++ " at " ++ placeText start ++ "-" ++ placeText stop ++ "\n"

def listingFrom (fs : FileSet) (number : Nat) : List Token → String
  | [] => ""
  | t :: rest => listingLine fs number t ++ listingFrom fs (number + 1) rest

def listing (fs : FileSet) (ts : List Token) : String := listingFrom fs 1 ts

def json (t : Token) : Json :=
  .object <| [("kind", .str t.kind.name)]
    ++ (if t.text == "" then [] else [("text", .str t.text)])
    ++ [("span", .object [("File", .nat t.span.file), ("Start", .nat t.span.start),
      ("End", .nat t.span.stop)])]

def document (ts : List Token) : String := Json.document (.array (ts.map json))

end WitnessLang.Token

namespace WitnessLang.Command

def tokenize (a : Arguments) (path : String) : Run Unit := do
  let settings ← Run.ofExcept (Settings.read a)
  let raw ← Run.ofFiles ("tokenization failed: load " ++ path ++ ": ") (← Run.query (.read path))
  let (files, file) := Build.loadFile path raw
  let .ok (tokens, findings) := file.scan | throw .crash
  let bag := (Bag.ofLimit settings.maxDiagnostics).addAll findings
  settings.report files bag
  match a.text "format" "pretty" with
  | "pretty" => Run.printText (Token.listing files tokens)
  | "json" => Run.printText (Token.document tokens)
  | format => Run.fail ("unknown format: " ++ format)
  if bag.hasErrors then throw .failed

def parse (a : Arguments) (path : String) : Run Unit := do
  let settings ← Run.ofExcept (Settings.read a)
  let r ← compile { stop := .parse, maxDiagnostics := settings.maxDiagnostics } path
  settings.report r.files r.bag
  if r.failed then throw .failed
  Run.printText (← treeText r .parse .text)

structure CheckRequest where
  stop : Build.Stage
  /-- The tree to print. -/
  emit : Option Build.Stage
  format : Build.TreeFormat
  /-- Whether the last tree is printed when a stage fails. -/
  emitOnError : Bool
  target : Target

def CheckRequest.read (a : Arguments) : Except String CheckRequest := do
  let wish := a.text "emit" ""
  let stop ← Build.Stage.requested (a.text "stop-after" "")
  let format ← Build.TreeFormat.ofName (a.text "format" "text")
  let emit ← if wish.isEmpty then pure none else do
    let st ← Build.Stage.ofTree wish
    if stop.index < st.index then
      throw ("--emit " ++ wish ++ " needs --stop-after " ++ st.name ++ " or later")
    pure (some st)
  let target ← Target.ofPointerSize (a.number "ptr-size" 0)
  return { stop, emit, format, emitOnError := a.switch "emit-on-error" false, target }

/-- Prints the tree that is asked for if it was built before a failure, or the last one. -/
def emitPartial (q : CheckRequest) (r : Build.Outcome) : Run Unit := do
  match r.reached with
  | none => return
  | some last =>
    let st := match q.emit with
      | some st => if st.index ≤ last.index then st else last
      | none => last
    let format := if st.index < Build.Stage.lower.index then .text else q.format
    Run.complain (Bytes.ofString
      ("emitting " ++ st.name ++ " tree built before the failure\n"))
    Run.printText (← treeText r st format)

/-- Takes a file through the stages and reports what was found. -/
def check (a : Arguments) (path : String) : Run Unit := do
  let settings ← Run.ofExcept (Settings.read a)
  let q ← Run.ofExcept (CheckRequest.read a)
  let r ← compile { stop := q.stop, target := q.target, maxDiagnostics := settings.maxDiagnostics }
    path
  settings.report r.files r.bag
  if r.failed then
    if q.emitOnError then emitPartial q r
    throw .failed
  match q.emit with
  | some st => Run.printText (← treeText r st q.format)
  | none =>
    settings.status (r.path ++ ": ok (" ++ Build.Stage.nameOf r.reached ++ ")")

end WitnessLang.Command
