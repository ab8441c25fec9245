import WitnessLang.Build.Stage
import WitnessLang.Text.Trim
import WitnessLang.Text.Width

set_option autoImplicit false

namespace WitnessLang.Build

structure News where
  file : String
  stage : Option Stage := none
  /-- No status says nothing new about the stages. -/
  status : Option Status := none
  error : Option String := none
  /-- Time taken, in microseconds. -/
  elapsed : Int := 0
  deriving Repr

/-- What an event of a build says, with the time taken. -/
def News.ofEvent (e : Event) (elapsed : Int) : News :=
  ⟨e.file, e.stage, some e.status, e.error, elapsed⟩

structure Row where
  path : String
  /-- The position of the stage at work, or of the one that failed; before the first stage
  one less than its position. -/
  stand : Int := -1
  outcome : Option Status := none
  error : String := ""
  elapsed : Int := 0
  deriving Repr

structure Progress where
  title : String
  rows : List Row
  columns : Nat := 80
  /-- Whether the build is over. -/
  closed : Bool := false
  deriving Repr

/-- The position of a stage; nothing comes right before the first one. -/
def stageIndex : Option Stage → Int
  | some st => st.index
  | none => -1

namespace Row

/-- The row after some news. The stage of a failure is the last one that succeeded. -/
def record (r : Row) (n : News) : Row :=
  let r : Row :=
    match n.status with
    | some .working => { r with stand := stageIndex n.stage }
    | some .failed =>
      { r with
        stand := stageIndex n.stage + 1
        outcome := some .failed
        error := n.error.getD r.error }
    | some .done => { r with stand := stageIndex n.stage, outcome := some .done }
    | some .cached => { r with stand := stageIndex n.stage, outcome := some .cached }
    | some .queued | none => r
  if 0 < n.elapsed then { r with elapsed := n.elapsed } else r

/-- How much of a file is built: before it is finished, the stages it has behind it. -/
def fraction (r : Row) : Rat :=
  if r.outcome.isSome then 1
  else if r.stand < 0 then 0
  else r.stand / Stage.all.length

def cell (r : Row) (position : Nat) : Char :=
  let finished := r.outcome.isSome
  if r.outcome = some .failed ∧ (position : Int) = r.stand then '✗'
  else if (position : Int) < r.stand ∨ (finished ∧ (position : Int) = r.stand) then '■'
  else if ¬finished ∧ (position : Int) = r.stand then '▸'
  else '·'

def strip (r : Row) : String := String.ofList (Stage.all.map fun st => r.cell st.index)

def label (r : Row) : String :=
  match r.outcome with
  | some s => s.word
  | none =>
    match if r.stand < 0 then none else Stage.all[r.stand.toNat]? with
    | some st => st.name
    | none => Status.queued.word

end Row

def updateLast (path : String) (f : Row → Row) : List Row → List Row
  | [] => []
  | r :: rest =>
    if r.path == path && !rest.any (·.path == path) then f r :: rest
    else r :: updateLast path f rest

/-- Digits behind a point, without zeros at their end. -/
def fraction (millis : Nat) : String :=
  let digits := (toString (1000 + millis)).toList.drop 1
  let kept := (digits.reverse.dropWhile (· == '0')).reverse
  if kept.isEmpty then "" else "." ++ String.ofList kept

/-- A time in hours, minutes and seconds, rounded to milliseconds. -/
def durationText (micros : Nat) : String :=
  let millis := (micros + 500) / 1000
  let seconds := millis / 1000
  if millis = 0 then "0s"
  else if millis < 1000 then toString millis ++ "ms"
  else
    (if 3600 ≤ seconds then toString (seconds / 3600) ++ "h" else "")
      ++ (if 60 ≤ seconds then toString (seconds / 60 % 60) ++ "m" else "")
      ++ toString (seconds % 60) ++ fraction (millis % 1000) ++ "s"

/-- A text cut to a number of columns, marked if there is room for the mark. -/
def cutTo (columns : Nat) (s : String) : String :=
  if columns = 0 || Width.ofString s ≤ columns then s
  else Width.truncate s columns (if columns ≤ 3 then "" else "...")

/-- A text as a box: tabs are four blanks wide, and all lines are as wide as the widest. -/
def boxed (s : String) : String :=
  let s := (s.replace "\t" "    ").replace "\r\n" "\n"
  let lines := s.splitToList (· == '\n')
  let widest := (lines.map Width.ofString).foldl max 0
  "\n".intercalate (lines.map fun l => l ++ Pad.blanks (widest - Width.ofString l))

namespace Progress

def start (title : String) (files : List String) : Progress :=
  { title, rows := files.map fun f => { path := f } }

/-- Takes news in; news about unknown files is dropped. -/
def record (p : Progress) (n : News) : Progress :=
  { p with rows := updateLast n.file (·.record n) p.rows }

/-- Sets the width; widths that are not positive are dropped. -/
def resize (p : Progress) (columns : Int) : Progress :=
  if 0 < columns then { p with columns := columns.toNat } else p

def close (p : Progress) : Progress := { p with closed := true }

def count (p : Progress) (s : Status) : Nat := (p.rows.filter (·.outcome == some s)).length

/-- How much of all files is built; nothing when there are none. -/
def completion (p : Progress) : Rat :=
  if p.rows.isEmpty then 0 else p.rows.foldl (fun sum r => sum + r.fraction) 0 / p.rows.length

def rowText (p : Progress) (r : Row) : String :=
  let columns := max (p.columns - (Stage.all.length + 10 + 8)) 16
  "  " ++ r.strip ++ " " ++ Pad.right 10 r.label ++ " " ++ cutTo columns r.path
    ++ (if 0 < r.elapsed then " " ++ durationText r.elapsed.toNat else "") ++ "\n"
    ++ (if r.error.isEmpty then ""
      else "    " ++ boxed (cutTo (max (p.columns - 4) 16) r.error) ++ "\n")

/-- The bar below the rows: full once the build is over. -/
def bar (p : Progress) : String :=
  String.ofList (List.replicate (max (p.columns - 4) 10) (if p.closed then '█' else '░'))

def view (p : Progress) : String :=
  if p.rows.isEmpty then ""
  else
    let cached := p.count .cached
    let failed := p.count .failed
    (if p.closed then "✓" else "⠋") ++ " " ++ boxed p.title ++ "  "
      ++ toString (p.count .done + cached + failed) ++ "/" ++ toString p.rows.length ++ " built, "
      ++ toString cached ++ " cached, " ++ toString failed ++ " failed\n\n"
      ++ String.join (p.rows.map p.rowText) ++ "\n" ++ p.bar ++ "\n"

def quits (key : String) : Bool := key == "ctrl+c" || key == "q"

end Progress

end WitnessLang.Build
