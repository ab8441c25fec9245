import WitnessLang.Diagnostic.Bag
import WitnessLang.Format.Ansi
import WitnessLang.Format.Json
import WitnessLang.Source.File
import WitnessLang.Text.Case
import WitnessLang.Text.Quoted
import WitnessLang.Text.Trim
import WitnessLang.Text.Width

set_option autoImplicit false

namespace WitnessLang

inductive ReportStyle where
  | pretty | short | json
  deriving DecidableEq, Repr, Inhabited

namespace ReportStyle

def name : ReportStyle → String
  | .pretty => "pretty"
  | .short => "short"
  | .json => "json"

/-- The style of a name, in any case and with white space around it; no name asks for the
pretty style. -/
def ofName (s : String) : Except String ReportStyle :=
  match Case.lower (Trim.both s) with
  | "" | "pretty" => .ok .pretty
  | "short" => .ok .short
  | "json" => .ok .json
  | _ => .error ("unknown diagnostics format " ++ Quoted.ofString s
      ++ " (expected pretty|short|json)")

end ReportStyle

/-- Whether colour is used, given the wish in any case and whether it would be used without
a clear one. -/
def colorEnabled (wish : String) (otherwise : Bool) : Bool :=
  match Case.lower wish with
  | "on" | "always" => true
  | "off" | "never" => false
  | _ => otherwise

inductive PathMode where
  | asGiven | absolute | relative | baseName
  deriving DecidableEq, Repr

structure ReportOptions where
  color : Bool := false
  /-- Lines shown before and after the marked one. -/
  context : Nat := 0
  pathMode : PathMode := .asGiven
  /-- The directory that relative paths start from. -/
  baseDir : String := ""
  /-- The directory the report is made in. -/
  cwd : String := "/"
  notes : Bool := true
  /-- Lines and columns in JSON reports. -/
  positions : Bool := true
  /-- The most findings in a JSON report; zero for all. -/
  limit : Nat := 0

namespace Report

def shownPath (o : ReportOptions) : Option SourceFile → String
  | none => "<unknown>"
  | some f =>
    match o.pathMode with
    | .asGiven => f.path
    | .absolute => if f.origin.isVirtual then f.path else Path.absolute o.cwd f.path
    | .relative =>
      if o.baseDir == "" then f.path else (Path.relative? o.baseDir f.path).getD f.path
    | .baseName => Path.base f.path

def place (o : ReportOptions) (f : Option SourceFile) (p : Position) : String :=
  shownPath o f ++ ":" ++ toString p.line ++ ":" ++ toString p.column

def expandTabs (b : Bytes) : Bytes := b.replace 9 (Bytes.fill 4 32)

def gutter (o : ReportOptions) (width : Nat) (label : String) : Bytes :=
  Ansi.paint o.color [.blue] (Bytes.ofString (Pad.left width label ++ " |")) ++ Bytes.ofString " "

/-- The line of markers under a source line, from byte `start` to byte `stop` of it. -/
def markers (o : ReportOptions) (width : Nat) (raw : Bytes) (start stop : Nat) : Bytes :=
  let start := min start raw.length
  let stop := min (max stop start) raw.length
  let pad := Width.ofBytes (expandTabs (raw.take start))
  let marks := max (Width.ofBytes (raw.slice start stop)) 1
  gutter o width "" ++ Bytes.fill pad 32
    ++ Ansi.paint o.color [.red] (Bytes.ofString "^" ++ Bytes.fill (marks - 1) 126) ++ [10]

/-- The marked line with its neighbours. A start column of zero, which only an offset at the end of
the 32-bit range has, cannot be marked. -/
def snippet (o : ReportOptions) (f : SourceFile) (span : Span) (context : Nat) : Option Bytes :=
  let start := f.position span.start
  let stop := f.position span.stop
  let first := start.line - min (start.line - 1) context
  let last := min (start.line + context) f.lineCount
  let width := (toString last).length
  if start.column = 0 then none else
    some <| (List.range' first (last + 1 - first)).flatMap fun n =>
      let raw := f.line n
      let shown := gutter o width (toString n) ++ expandTabs raw ++ [10]
      if n = start.line then
        let stopAt := if stop.line = start.line then stop.column - 1 else raw.length
        shown ++ markers o width raw (start.column - 1) stopAt
      else shown

def severityColor (s : Severity) : List Ansi.Attribute :=
  if s = .error then [.red, .bold]
  else if s = .warning then [.yellow, .bold]
  else [.cyan, .bold]

def note (o : ReportOptions) (fs : FileSet) (n : Note) : Option Bytes := do
  let f := fs.get? n.span.file
  let head := Bytes.ofString "  " ++ Ansi.paint o.color [.green] (Bytes.ofString "note:")
    ++ Bytes.ofString (" " ++ place o f (fs.resolve n.span).1 ++ ": ") ++ n.message ++ [10]
  match f with
  | some f => if n.span.isEmpty then some head else return head ++ (← snippet o f n.span 0)
  | none => some head

def entry (o : ReportOptions) (fs : FileSet) (d : Diagnostic) : Option Bytes := do
  let f := fs.get? d.span.file
  let head := Ansi.paint o.color [.white, .bold]
      (Bytes.ofString (place o f (fs.resolve d.span).1))
    ++ Bytes.ofString ": " ++ Ansi.paint o.color (severityColor d.severity)
      (Bytes.ofString d.severity.name)
    ++ Bytes.ofString " " ++ Ansi.paint o.color [.bold] (Bytes.ofString d.code.id)
    ++ Bytes.ofString ": " ++ d.message ++ [10]
  let body ← match f with
    | some f => snippet o f d.span o.context
    | none => some []
  let notes ← if o.notes then d.notes.mapM (note o fs) else some []
  return head ++ body ++ notes.flatten

/-- All findings with source lines, an empty line between two. -/
def pretty (o : ReportOptions) (fs : FileSet) (b : Bag) : Option Bytes := do
  return [10].intercalate (← b.items.mapM (entry o fs))

def short (o : ReportOptions) (fs : FileSet) (b : Bag) : Bytes :=
  b.items.flatMap fun d =>
    Bytes.ofString (place o (fs.get? d.span.file) (fs.resolve d.span).1 ++ ": "
      ++ d.severity.name ++ " " ++ d.code.id ++ ": ") ++ d.message ++ [10]

def optional (key : String) (n : Nat) : List (String × Json) :=
  if n = 0 then [] else [(key, .nat n)]

def location (o : ReportOptions) (fs : FileSet) (s : Span) : Json :=
  let f := fs.get? s.file
  let (start, stop) := fs.resolve s
  .object <|
    [("file", .str (shownPath o f)), ("start_byte", .nat s.start), ("end_byte", .nat s.stop)]
    ++ (if o.positions && f.isSome then
        optional "start_line" start.line ++ optional "start_col" start.column
          ++ optional "end_line" stop.line ++ optional "end_col" stop.column
      else [])

def item (o : ReportOptions) (fs : FileSet) (d : Diagnostic) : Json :=
  let notes := if o.notes then d.notes else []
  .object <|
    [("severity", .str d.severity.name), ("code", .str d.code.id), ("title", .str d.code.title),
      ("message", .string d.message), ("location", location o fs d.span)]
    ++ (if notes.isEmpty then [] else
      [("notes", .array (notes.map fun n =>
        .object [("message", .string n.message), ("location", location o fs n.span)]))])

def json (o : ReportOptions) (fs : FileSet) (b : Bag) : String :=
  let items := if o.limit = 0 then b.items else b.items.take o.limit
  Json.document (.object [("diagnostics", .array (items.map (item o fs))),
    ("count", .nat items.length)])

def render (style : ReportStyle) (o : ReportOptions) (fs : FileSet) (b : Bag) : Option Bytes :=
  match style with
  | .pretty => pretty o fs b
  | .short => some (short o fs b)
  | .json => some (Bytes.ofString (json o fs b))

end Report

end WitnessLang
