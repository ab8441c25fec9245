import WitnessLang.Diagnostic.Code
import WitnessLang.Source.Span
import WitnessLang.Text.Bytes

set_option autoImplicit false

namespace WitnessLang

structure Severity where
  rank : Nat
  deriving DecidableEq, Repr

namespace Severity

def info : Severity := ⟨0⟩
def warning : Severity := ⟨1⟩
def error : Severity := ⟨2⟩

def name (s : Severity) : String :=
  match s.rank with
  | 0 => "INFO"
  | 1 => "WARNING"
  | 2 => "ERROR"
  | _ => "UNKNOWN"

end Severity

structure Note where
  span : Span
  message : Bytes
  deriving DecidableEq, Repr

structure Diagnostic where
  severity : Severity
  code : Code
  message : Bytes
  span : Span
  notes : List Note := []
  deriving DecidableEq, Repr

namespace Diagnostic

def error (code : Code) (span : Span) (message : String) : Diagnostic where
  severity := .error
  code := code
  message := Bytes.ofString message
  span := span

def withNote (d : Diagnostic) (span : Span) (message : String) : Diagnostic :=
  { d with notes := d.notes ++ [⟨span, Bytes.ofString message⟩] }

/-- The order of a report: by place, then the graver first, then by code. -/
def before (a b : Diagnostic) : Bool :=
  if a.span.file != b.span.file then decide (a.span.file < b.span.file)
  else if a.span.start != b.span.start then decide (a.span.start < b.span.start)
  else if a.span.stop != b.span.stop then decide (a.span.stop < b.span.stop)
  else if a.severity != b.severity then decide (b.severity.rank < a.severity.rank)
  else decide (a.code.number < b.code.number)

end Diagnostic

/-- Findings in the order they were made, no more than `limit` of them. -/
structure Bag where
  limit : Nat
  items : List Diagnostic := []

namespace Bag

/-- An empty bag; a limit that is not positive means one hundred. -/
def ofLimit (limit : Int) : Bag := ⟨if limit ≤ 0 then 100 else limit.toNat, []⟩

def hasRoom (b : Bag) : Bool := decide (b.items.length < b.limit)

def add (b : Bag) (d : Diagnostic) : Bag :=
  if b.hasRoom then { b with items := b.items ++ [d] } else b

def addAll (b : Bag) (ds : List Diagnostic) : Bag := ds.foldl add b

def hasErrors (b : Bag) : Bool := b.items.any fun d => decide (2 ≤ d.severity.rank)

/-- Takes up all of another bag, with as much room as that needs. -/
def merge (b other : Bag) : Bag :=
  ⟨max b.limit (b.items.length + other.items.length), b.items ++ other.items⟩

/-- Report order; findings that compare alike keep their order. -/
def sort (b : Bag) : Bag :=
  { b with items := b.items.mergeSort fun x y => !(y.before x) }

end Bag

end WitnessLang
