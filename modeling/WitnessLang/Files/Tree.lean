import WitnessLang.Path
import WitnessLang.Text.Bytes

set_option autoImplicit false

namespace WitnessLang

inductive FileNode where
  | file (content : Bytes)
  | directory
  /-- A file that is always empty, whatever is written to it. -/
  | sink
  /-- A link that leads nowhere. -/
  | dangling
  deriving DecidableEq, Repr

inductive FileFault where
  | missing
  | isDirectory
  | notDirectory
  | alreadyThere
  | nameTooLong
  /-- A path that no file can have. -/
  | invalid
  /-- Any other fault, in words. -/
  | refused (reason : String)
  deriving DecidableEq, Repr

def FileFault.reason : FileFault → String
  | .missing => "no such file or directory"
  | .isDirectory => "is a directory"
  | .notDirectory => "not a directory"
  | .alreadyThere => "file exists"
  | .nameTooLong => "file name too long"
  | .invalid => "invalid argument"
  | .refused reason => reason

structure FileError where
  action : String
  path : String
  fault : FileFault
  deriving DecidableEq, Repr

def FileError.message (e : FileError) : String :=
  e.action ++ " " ++ e.path ++ ": " ++ e.fault.reason

/-- The directories on the way to a clean path, outermost first. -/
def Path.ancestors (p : String) : List String :=
  let ns := Path.cleanNames p
  (List.range (ns.length - 1)).map fun n => Path.ofNames (Path.isRooted p) (ns.take (n + 1))

/-- The parts of a path up to each of its slashes, and the path itself. -/
def Path.approach (p : String) : List String :=
  let cs := p.toList
  (((List.range cs.length).filter fun n => cs[n]? == some '/').map fun n =>
    String.ofList (cs.take (n + 1))) ++ (if p.endsWith "/" then [] else [p])

structure FileTree where
  nodes : List (String × FileNode) := []

namespace FileTree

/-- What a clean path leads to; the root is always a directory. -/
def node? (t : FileTree) (p : String) : Option FileNode :=
  match t.nodes.lookup p with
  | some n => some n
  | none => if p == "/" then some .directory else none

def set (t : FileTree) (p : String) (n : FileNode) : FileTree :=
  ⟨(p, n) :: t.nodes.filter fun e => e.1 != p⟩

/-- Sets what a path leads to, with the directories on the way to it. -/
def place (t : FileTree) (p : String) (n : FileNode) : FileTree :=
  let t := (Path.ancestors p).foldl
    (fun t a => if (t.node? a).isSome then t else t.set a .directory) t
  t.set p n

def remove (t : FileTree) (p : String) : FileTree :=
  ⟨t.nodes.filter fun e => e.1 != p && !(p ++ "/").isPrefixOf e.1⟩

def nodeAt (t : FileTree) (here : List String) : Option FileNode := t.node? (Path.ofNames true here)

/-- The most bytes of a name, and of a path with the mark for its end. -/
def maxName : Nat := 255
def maxPath : Nat := 4096

/-- Goes one step further. Only a directory has anything in it, a link that leads nowhere ends the
walk, and nothing is above the root. -/
def step (t : FileTree) (here : List String) (name : String) : Except FileFault (List String) :=
  if t.nodeAt here ≠ some .directory then .error .notDirectory
  else if name == "." then .ok here
  else if name == ".." then .ok here.dropLast
  else if maxName < name.utf8ByteSize then .error .nameTooLong
  else match t.nodeAt (here ++ [name]) with
    | none | some .dangling => .error .missing
    | some _ => .ok (here ++ [name])

/-- Where a path starts, for one who is in the directory `cwd`, and its steps from there. -/
def route (cwd path : String) : Except FileFault (List String × List String) :=
  if path.contains '\x00' then .error .invalid
  else if path.isEmpty then .error .missing
  else if maxPath ≤ path.utf8ByteSize then .error .nameTooLong
  else .ok (if Path.isRooted path then [] else Path.names cwd, Path.steps path)

/-- The way from the root to what a path leads to; only a directory may be followed by a slash. -/
def locate (t : FileTree) (cwd path : String) : Except FileFault (List String) := do
  let (start, steps) ← route cwd path
  let here ← steps.foldlM t.step start
  if path.endsWith "/" && t.nodeAt here != some .directory then throw .notDirectory
  return here

def find (t : FileTree) (cwd path : String) : Except FileFault FileNode := do
  match t.nodeAt (← t.locate cwd path) with
  | some n => return n
  | none => throw .missing

/-- Where something new would go: its directory and its name. There is no name if the path can
only lead to a directory that exists. -/
def slot (t : FileTree) (cwd path : String) : Except FileFault (List String × Option String) := do
  let (start, steps) ← route cwd path
  let dir ← steps.dropLast.foldlM t.step start
  if t.nodeAt dir ≠ some .directory then throw .notDirectory
  match steps.getLast? with
  | none | some "." | some ".." => return (dir, none)
  | some name => if maxName < name.utf8ByteSize then throw .nameTooLong else return (dir, some name)

def write (t : FileTree) (cwd path : String) (content : Bytes) : Except FileFault FileTree := do
  match ← t.slot cwd path with
  | (_, none) => throw .isDirectory
  | (dir, some name) =>
    let here := dir ++ [name]
    if path.endsWith "/" || t.nodeAt here == some .directory then throw .isDirectory
    if t.nodeAt here == some .sink then return t
    return t.set (Path.ofNames true here) (.file content)

def makeDirectory (t : FileTree) (cwd path : String) : Except FileFault FileTree := do
  match ← t.slot cwd path with
  | (_, none) => throw .alreadyThere
  | (dir, some name) =>
    let here := dir ++ [name]
    if (t.nodeAt here).isSome then throw .alreadyThere
    return t.set (Path.ofNames true here) .directory

/-- Makes sure that a path leads to a directory, in a directory that exists. -/
def ensureDirectory (t : FileTree) (cwd path : String) : Except FileError FileTree :=
  match t.find cwd path with
  | .ok .directory => .ok t
  | .ok _ => .error ⟨"mkdir", path, .notDirectory⟩
  | .error _ =>
    match t.makeDirectory cwd path with
    | .ok t => .ok t
    | .error fault => .error ⟨"mkdir", path, fault⟩

/-- Makes sure that paths lead to directories, one after the other. What was made before a failure
stays. -/
def ensureAll (cwd : String) : List String → FileTree → Except FileError Unit × FileTree
  | [], t => (.ok (), t)
  | p :: rest, t =>
    match t.ensureDirectory cwd p with
    | .ok t => ensureAll cwd rest t
    | .error e => (.error e, t)

/-- Makes sure that a path leads to a directory, with all directories on the way. -/
def ensureDirectories (t : FileTree) (cwd path : String) : Except FileError Unit × FileTree :=
  ensureAll cwd (Path.approach path) t

/-- The paths below a directory that are no directories, sorted. -/
def filesUnder (t : FileTree) (dir : String) : List String :=
  let start := if dir.endsWith "/" then dir else dir ++ "/"
  let below := t.nodes.filter fun e => e.2 != .directory && start.isPrefixOf e.1
  (below.map (·.1)).mergeSort fun a b => decide (a ≤ b)

/-- The files below a directory, with their contents, that are new or changed since an older
tree, sorted. -/
def changesSince (t old : FileTree) (dir : String) : List (String × Bytes) :=
  (t.filesUnder dir).filterMap fun p =>
    match t.node? p with
    | some (.file content) =>
      if old.node? p = some (.file content) then none else some (p, content)
    | _ => none

end FileTree

end WitnessLang
