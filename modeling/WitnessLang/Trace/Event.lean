import WitnessLang.Format.Json
import WitnessLang.Text.Case
import WitnessLang.Text.Quoted

set_option autoImplicit false

namespace WitnessLang.Trace

structure Level where
  number : Nat
  deriving DecidableEq, Repr, Inhabited

/-- How large the piece of work is that an event is about; larger numbers are finer. -/
structure Scope where
  number : Nat
  deriving DecidableEq, Repr, Inhabited

structure Kind where
  number : Nat
  deriving DecidableEq, Repr, Inhabited

structure Format where
  number : Nat
  deriving DecidableEq, Repr, Inhabited

structure Storage where
  number : Nat
  deriving DecidableEq, Repr, Inhabited

namespace Scope

def whole : Scope := ⟨1⟩
def stage : Scope := ⟨2⟩
def function : Scope := ⟨3⟩
def detail : Scope := ⟨4⟩

def name (s : Scope) : String :=
  match s.number with
  | 1 => "driver"
  | 2 => "stage"
  | 3 => "function"
  | 4 => "detail"
  | _ => "unknown"

end Scope

namespace Level

def off : Level := ⟨0⟩
def error : Level := ⟨1⟩
def phase : Level := ⟨2⟩
def detail : Level := ⟨3⟩
def debug : Level := ⟨4⟩

def name (l : Level) : String :=
  match l.number with
  | 0 => "off"
  | 1 => "error"
  | 2 => "phase"
  | 3 => "detail"
  | 4 => "debug"
  | _ => "unknown"

def isOn (l : Level) : Bool := decide (0 < l.number)

def admits (l : Level) (s : Scope) : Bool :=
  match l.number with
  | 1 | 2 => decide (s.number ≤ 2)
  | 3 => decide (s.number ≤ 3)
  | 4 => true
  | _ => false

def ofName (s : String) : Except String Level :=
  match Case.lower s with
  | "off" | "" => .ok off
  | "error" => .ok error
  | "phase" => .ok phase
  | "detail" => .ok detail
  | "debug" => .ok debug
  | _ => .error ("invalid trace level: " ++ Quoted.ofString s
      ++ " (expected: off|error|phase|detail|debug)")

end Level

namespace Kind

def spanBegin : Kind := ⟨1⟩
def spanEnd : Kind := ⟨2⟩
def point : Kind := ⟨3⟩

def name (k : Kind) : String :=
  match k.number with
  | 1 => "begin"
  | 2 => "end"
  | 3 => "point"
  | _ => "unknown"

def mark (k : Kind) : String :=
  match k.number with
  | 1 => "→ "
  | 2 => "← "
  | 3 => "• "
  | _ => ""

end Kind

namespace Format

def automatic : Format := ⟨0⟩
def text : Format := ⟨1⟩
def documents : Format := ⟨2⟩

def name (f : Format) : String :=
  match f.number with
  | 1 => "text"
  | 2 => "ndjson"
  | _ => "auto"

def ofName (s : String) : Except String Format :=
  match Case.lower s with
  | "" | "auto" => .ok automatic
  | "text" => .ok text
  | "ndjson" | "json" => .ok documents
  | _ => .error ("invalid trace format: " ++ Quoted.ofString s ++ " (expected: auto|text|ndjson)")

/-- The format that is meant, given the path of the output. -/
def resolve (f : Format) (path : String) : Format :=
  if f ≠ automatic then f
  else if path.endsWith ".ndjson" || path.endsWith ".jsonl" then documents
  else text

end Format

namespace Storage

def stream : Storage := ⟨1⟩
def ring : Storage := ⟨2⟩
def both : Storage := ⟨3⟩

def name (m : Storage) : String :=
  match m.number with
  | 1 => "stream"
  | 2 => "ring"
  | 3 => "both"
  | _ => "unknown"

def ofName (s : String) : Except String Storage :=
  match Case.lower s with
  | "stream" => .ok stream
  | "ring" => .ok ring
  | "both" => .ok both
  | _ => .error ("invalid storage mode: " ++ Quoted.ofString s ++ " (expected: stream|ring|both)")

end Storage

/-- One event. Times are in microseconds since the start of 1970. -/
structure Event where
  time : Int := 0
  sequence : Nat := 0
  kind : Kind
  scope : Scope
  /-- The number of the piece of work; zero for none. -/
  span : Nat := 0
  /-- The number of the piece of work around it; zero for none. -/
  parent : Nat := 0
  /-- The number of the worker; zero for none. -/
  worker : Nat := 0
  session : String := ""
  name : String
  detail : String := ""
  /-- Further facts, sorted by name. -/
  extra : List (String × String) := []
  deriving DecidableEq, Repr, Inhabited

def padded (width n : Nat) : String :=
  let s := toString n
  String.ofList (List.replicate (width - s.length) '0') ++ s

/-- Year, month and day of a day counted from the start of 1970. Years are counted from
March on, so that a leap day comes last; 400 years have 146097 days. -/
def civilDate (day : Int) : Int × Nat × Nat :=
  let shifted := day + 719468
  let era := Int.fdiv shifted 146097
  let dayOfEra := (shifted - era * 146097).toNat
  let yearOfEra := (dayOfEra - dayOfEra / 1460 + dayOfEra / 36524 - dayOfEra / 146096) / 365
  let dayOfYear := dayOfEra - (365 * yearOfEra + yearOfEra / 4 - yearOfEra / 100)
  let month := (5 * dayOfYear + 2) / 153
  let dayOfMonth := dayOfYear - (153 * month + 2) / 5 + 1
  let civilMonth := if month < 10 then month + 3 else month - 9
  let year : Int := yearOfEra + era * 400
  (if civilMonth ≤ 2 then year + 1 else year, civilMonth, dayOfMonth)

def clockTime (time : Int) : String :=
  let micros := (Int.fmod time 86400000000).toNat
  let seconds := micros / 1000000
  padded 2 (seconds / 3600) ++ ":" ++ padded 2 (seconds / 60 % 60) ++ ":"
    ++ padded 2 (seconds % 60) ++ "." ++ padded 6 (micros % 1000000)

def yearText (y : Int) : String := if y < 0 then "-" ++ padded 4 (-y).toNat else padded 4 y.toNat

def timestamp (time : Int) : String :=
  let (year, month, day) := civilDate (Int.fdiv time 86400000000)
  yearText year ++ "-" ++ padded 2 month ++ "-" ++ padded 2 day ++ "T" ++ clockTime time ++ "Z"

namespace Event

def line (e : Event) : String :=
  let facts := e.extra.map fun p => p.1 ++ "=" ++ p.2
  clockTime e.time ++ " [" ++ e.scope.name ++ "] " ++ (if 0 < e.parent then "  " else "")
    ++ e.kind.mark ++ e.name
    ++ (if e.detail.isEmpty then "" else " (" ++ e.detail ++ ")")
    ++ (if facts.isEmpty then "" else " \x7b" ++ ", ".intercalate facts ++ "\x7d")
    ++ "\n"

def unlessZero (key : String) (n : Nat) : List (String × Json) :=
  if n = 0 then [] else [(key, .nat n)]

def unlessEmpty (key s : String) : List (String × Json) :=
  if s.isEmpty then [] else [(key, .str s)]

def document (e : Event) : String :=
  let facts := Json.object (e.extra.map fun p => (p.1, Json.str p.2))
  (Json.object ([("time", .str (timestamp e.time)), ("seq", .nat e.sequence),
      ("kind", .str e.kind.name), ("scope", .str e.scope.name), ("span_id", .nat e.span)]
    ++ unlessZero "parent_id" e.parent ++ unlessZero "gid" e.worker
    ++ unlessEmpty "session" e.session ++ [("name", .str e.name)]
    ++ unlessEmpty "detail" e.detail
    ++ (if e.extra.isEmpty then [] else [("extra", facts)]))).compact ++ "\n"

def render (e : Event) (f : Format) : String :=
  if f = Format.documents then e.document else e.line

end Event

end WitnessLang.Trace
