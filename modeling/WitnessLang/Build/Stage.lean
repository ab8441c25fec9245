import WitnessLang.Text.Quoted

set_option autoImplicit false

namespace WitnessLang.Build

inductive Stage where
  | parse | resolve | check | pass | measure | lower | count
  deriving DecidableEq, Repr, Inhabited

namespace Stage

def all : List Stage := [.parse, .resolve, .check, .pass, .measure, .lower, .count]

def name : Stage → String
  | .parse => "parse"
  | .resolve => "qualify"
  | .check => "typecheck"
  | .pass => "typepass"
  | .measure => "sizer"
  | .lower => "lower"
  | .count => "refcount"

def index : Stage → Nat
  | .parse => 0
  | .resolve => 1
  | .check => 2
  | .pass => 3
  | .measure => 4
  | .lower => 5
  | .count => 6

def ofName? (s : String) : Option Stage := all.find? fun st => st.name == s

/-- The last stage that is asked for: no name asks for all stages, and checking has an
older name. -/
def requested (s : String) : Except String Stage :=
  if s.isEmpty then .ok .count
  else if s == "type_check" then .ok .check
  else match ofName? s with
    | some st => .ok st
    | none => .error ("unknown stage " ++ Quoted.ofString s ++ " (expected one of ["
        ++ " ".intercalate (all.map name) ++ "])")

/-- The names of the trees that the stages build, in order. -/
def treeNames : List (String × Stage) :=
  [("parsed", .parse), ("qualified", .resolve), ("typed", .check), ("typepassed", .pass),
    ("sized", .measure), ("lowered", .lower), ("counted", .count)]

/-- The stage whose tree is asked for, by the name of the tree or of the stage. -/
def ofTree (s : String) : Except String Stage :=
  match treeNames.lookup s with
  | some st => .ok st
  | none =>
    match ofName? s with
    | some st => .ok st
    | none => .error ("unknown --emit value " ++ Quoted.ofString s ++ " (expected "
        ++ "|".intercalate (treeNames.map (·.1)) ++ ")")

/-- The name of the last stage that was reached, if any was. -/
def nameOf : Option Stage → String
  | some st => st.name
  | none => ""

end Stage

inductive Status where
  | queued | working | done | failed
  /-- Answered from the cache. -/
  | cached
  deriving DecidableEq, Repr, Inhabited

def Status.word : Status → String
  | .queued => "queued"
  | .working => "working"
  | .done => "done"
  | .failed => "error"
  | .cached => "cached"

def Status.ofWord? (s : String) : Option Status :=
  [queued, working, done, failed, cached].find? fun st => st.word == s

structure Event where
  file : String
  stage : Option Stage
  status : Status
  /-- What went wrong outside the stages. -/
  error : Option String := none
  deriving DecidableEq, Repr, Inhabited

end WitnessLang.Build
