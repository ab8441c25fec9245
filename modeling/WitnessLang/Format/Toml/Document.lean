import WitnessLang.Format.Toml.Statement
import WitnessLang.Text.Bytes

set_option autoImplicit false

namespace WitnessLang.Toml

/-- What stands under a key. Of an array only that it is one is kept. -/
inductive Value where
  | scalar (value : Scalar)
  | array
  | table (entries : List (String × Value))
  /-- Tables under one key that were given one by one. -/
  | tables (items : List (List (String × Value)))

abbrev Table := List (String × Value)

/-- The table that further keys go to: the newest one of several. -/
def Value.inner? : Value → Option Table
  | .table t => some t
  | .tables ts => ts.getLast?
  | _ => none

def Value.withInner (v : Value) (t : Table) : Value :=
  match v with
  | .tables ts => .tables (ts.dropLast ++ [t])
  | _ => .table t

namespace Table

/-- Puts a value under a name, in the place of an older one. -/
def set (t : Table) (name : String) (v : Value) : Table :=
  if (t.lookup name).isSome then t.map fun e => if e.1 == name then (name, v) else e
  else t ++ [(name, v)]

def find? : Key → Table → Option Value
  | [], _ => none
  | [name], t => t.lookup name
  | name :: rest, t => do find? rest (← (← t.lookup name).inner?)

/-- Puts a value under a key; there are tables on the way. -/
def put (v : Value) : Key → Table → Table
  | [], t => t
  | [name], t => set t name v
  | name :: rest, t =>
    match t.lookup name with
    | none => t
    | some old =>
      match old.inner? with
      | none => t
      | some inner => set t name (old.withInner (put v rest inner))

end Table

structure Note where
  isArray : Bool
  line : Nat
  deriving DecidableEq, Repr

structure Document where
  root : Table := []
  /-- The keys in the order they were met. -/
  keys : List Key := []
  /-- What is known of keys, the newest first. -/
  notes : List (Key × Note) := []

namespace Document

/-- Whether something stands under a key, with a table at each step on the way. -/
def defines (d : Document) (k : Key) : Bool := go d.root k
where
  go (t : Table) : Key → Bool
    | [] => false
    | [name] => (t.lookup name).isSome
    | name :: rest =>
      match t.lookup name with
      | some (.table t) => go t rest
      | _ => false

def isArray (d : Document) (k : Key) : Bool := (d.notes.lookup k).any (·.isArray)

def line? (d : Document) (k : Key) : Option Nat := (d.notes.lookup k).map (·.line)

def place (d : Document) (k : Key) : String :=
  "toml: " ++ (match d.line? k with
    | some n => "line " ++ toString n ++ " "
    | none => "") ++ "(last key " ++ Quoted.ofString k.render ++ "): "

end Document

inductive Clash where
  | repeated (key : Key)
  /-- Something on the way to a key is no table. -/
  | noTable (key : Key)
  /-- One more table for a key that holds something else. -/
  | noTables (key : Key)
  deriving DecidableEq, Repr

def Clash.message : Clash → String
  | .repeated k => "Key \x27" ++ k.render ++ "\x27 has already been defined."
  | .noTable k => "Key \x27" ++ k.render ++ "\x27 was already created as a hash."
  | .noTables k =>
    "Key \x27" ++ k.render ++ "\x27 was already created and cannot be used as an array."

inductive Fault where
  | malformed (reason : String)
  /-- A clash on a line, and the key that was read last. -/
  | clash (line : Nat) (last : String) (clash : Clash)
  deriving DecidableEq, Repr

def Fault.message : Fault → String
  | .malformed reason => "toml: " ++ reason
  | .clash line last c =>
    "toml: line " ++ toString line
      ++ (if last.isEmpty then "" else " (last key " ++ Quoted.ofString last ++ ")") ++ ": "
      ++ c.message

structure Draft where
  document : Document := {}
  /-- Tables that are there because of the keys below them, and may still be given. -/
  implied : List Key := []
  /-- The table that names belong to. -/
  context : Key := []
  /-- The name that is being given a value. -/
  current : String := ""
  /-- The line of the last key. -/
  line : Nat := 1

def Draft.last (d : Draft) : String :=
  if d.current.isEmpty then d.context.render
  else if d.context.isEmpty then d.current
  else d.context.render ++ "." ++ d.current

abbrev Assembly := StateT Draft (Except Fault)

namespace Assembly

def refuse {α : Type} (c : Clash) : Assembly α := do
  let d ← get
  throw (.clash d.line d.last c)

def find? (k : Key) : Assembly (Option Value) := return Table.find? k (← get).document.root

def put (k : Key) (v : Value) : Assembly Unit := modify fun d =>
  { d with document := { d.document with root := Table.put v k d.document.root } }

def imply (k : Key) : Assembly Unit := modify fun d => { d with implied := k :: d.implied }

def confirm (k : Key) : Assembly Unit := modify fun d =>
  { d with implied := d.implied.filter (· != k) }

/-- Notes what is known of a name; without a name, of the table that names belong to. -/
def note (name : String) (n : Note) : Assembly Unit := modify fun d =>
  let k := if name.isEmpty then d.context else d.context ++ [name]
  let k := if k.isEmpty then [""] else k
  { d with document := { d.document with notes := (k, n) :: d.document.notes } }

def meet (k : Key) : Assembly Unit := modify fun d =>
  { d with document := { d.document with keys := d.document.keys ++ [k] } }

/-- Gives a value to a name. What was an array may be given anew, and an implied table stays what
it is. -/
def give (name : String) (v : Value) : Assembly Unit := do
  let d ← get
  (Key.steps d.context).forM fun step => do
    if ((← find? step).bind Value.inner?).isNone then refuse (.repeated step)
  let k := d.context ++ [name]
  if (← find? k).isNone then put k v
  else if d.document.isArray k then
    confirm k
    put k v
  else if d.implied.contains k then confirm k
  else refuse (.repeated k)

/-- Goes to the table under a key; tables that are missing on the way are implied. With `more` it
is one more table under that key. -/
def enter (k : Key) (more : Bool) : Assembly Unit := do
  (Key.steps k.dropLast).forM fun step => do
    match ← find? step with
    | none =>
      imply step
      put step (.table [])
    | some v => if v.inner?.isNone then refuse (.noTable step)
  modify fun d => { d with context := k.dropLast }
  if more then
    match ← find? k with
    | none => put k (.tables [[]])
    | some (.tables ts) => put k (.tables (ts ++ [[]]))
    | some _ => refuse (.noTables k)
  else give (k.getLastD "") (.table [])
  modify fun d => { d with context := k }

def descend (name : String) : Assembly Unit := do
  let k := (← get).context ++ [name]
  imply k
  enter k false

mutual

/-- What a value comes to. The keys of a table within braces are given where the table will be;
`listed` tells whether it stands in an array. -/
def value (listed : Bool) : Expr → Assembly Value
  | .scalar v => return .scalar v
  | .array items => do
    let d ← get
    note d.current ⟨true, d.line⟩
    values items
    return .array
  | .table entries => do
    let d ← get
    let k := d.context ++ [d.current]
    set { d with context := k, current := "" }
    imply k
    enter k listed
    assignments entries
    modify fun e => { e with context := d.context, current := d.current }
    return .table (((← find? k).bind Value.inner?).getD [])

def values : List Expr → Assembly Unit
  | [] => return
  | e :: rest => do
    let _ ← value true e
    values rest

/-- Carries out an assignment; within braces a key is known by its own line. -/
def assign (braced : Bool) : Assignment → Assembly Unit
  | .mk k line e valueLine => do
    let outer := (← get).context
    let name := k.getLastD ""
    modify fun d => { d with current := name, line }
    k.dropLast.forM descend
    meet ((← get).context ++ [name])
    let v ← value false e
    give name v
    let isArray := match v with
      | .array => true
      | _ => false
    note name ⟨isArray, if braced then line else valueLine⟩
    modify fun d => { d with context := outer, current := "" }

/-- Carries out the assignments of a table within braces. -/
def assignments : List Assignment → Assembly Unit
  | [] => return
  | a :: rest => do
    assign true a
    assignments rest

end

def header (k : Key) (line : Nat) (more : Bool) : Assembly Unit := do
  modify fun d => { d with line }
  enter k more
  note "" ⟨false, line⟩
  meet k

def perform : Statement → Assembly Unit
  | .table k line => header k line false
  | .item k line => header k line true
  | .assign a => assign false a

end Assembly

def Document.ofStatements (ss : List Statement) : Except Fault Document :=
  match (ss.forM Assembly.perform).run {} with
  | .ok (_, d) => .ok d.document
  | .error e => .error e

def Document.parse (text : String) : Except Fault Document :=
  match Statement.readAll text with
  | .ok ss => ofStatements ss
  | .error reason => .error (.malformed reason)

/-- The bytes of a document behind a mark for their order. -/
def withoutMark : Bytes → Bytes
  | 0xEF :: 0xBB :: 0xBF :: rest => rest
  | 0xFF :: 0xFE :: rest | 0xFE :: 0xFF :: rest => rest
  | b => b

end WitnessLang.Toml
