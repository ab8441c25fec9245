set_option autoImplicit false

namespace WitnessLang.Path

def isRooted (p : String) : Bool := p.toList.head? == some '/'

def steps (p : String) : List String := (p.splitToList (· == '/')).filter (· != "")

/-- The names of a path, empty ones and the current directory left out. -/
def names (p : String) : List String := (steps p).filter (· != ".")

/-- Adds one name to reversed names, letting a parent step cancel the name before it. At the root
a parent step changes nothing. -/
def addName (rooted : Bool) (acc : List String) (s : String) : List String :=
  if s != ".." then s :: acc
  else match acc with
    | [] => if rooted then [] else [".."]
    | top :: rest => if top == ".." then ".." :: acc else rest

/-- The names of the shortest path with the same meaning. -/
def cleanNames (p : String) : List String :=
  ((names p).foldl (addName (isRooted p)) []).reverse

def ofNames (rooted : Bool) (ns : List String) : String :=
  if rooted then "/" ++ "/".intercalate ns
  else if ns.isEmpty then "." else "/".intercalate ns

/-- The shortest path with the same meaning; the empty path is the current directory. -/
def clean (p : String) : String := ofNames (isRooted p) (cleanNames p)

def join (a b : String) : String :=
  if a == "" && b == "" then ""
  else if a == "" then clean b
  else clean (a ++ "/" ++ b)

def absolute (cwd p : String) : String := if isRooted p then clean p else join cwd p

def base (p : String) : String :=
  if p == "" then "."
  else (steps p).getLastD "/"

def parent (p : String) : String :=
  let cut := (p.toList.reverse.dropWhile (· != '/')).reverse
  clean (String.ofList cut)

def suffix (p : String) : String :=
  let last := (p.toList.reverse.takeWhile (· != '/'))
  if last.contains '.' then
    String.ofList ('.' :: (last.takeWhile (· != '.')).reverse)
  else ""

def dropShared : List String → List String → List String × List String
  | a :: as, b :: bs => if a == b then dropShared as bs else (a :: as, b :: bs)
  | as, bs => (as, bs)

/-- The path that leads from the directory `start` to `target`, when text alone can tell. -/
def relative? (start target : String) : Option String :=
  if clean start == clean target then some "."
  else if isRooted start != isRooted target then none
  else
    let (up, down) := dropShared (cleanNames start) (cleanNames target)
    if up.head? == some ".." then none
    else some ("/".intercalate (up.map (fun _ => "..") ++ down))

end WitnessLang.Path
