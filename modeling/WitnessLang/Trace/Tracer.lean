import WitnessLang.Trace.Event

set_option autoImplicit false

namespace WitnessLang.Trace

/-- A buffer that keeps the latest events. Its cells are there from the start; they are filled from the front, and
once all of them are, the oldest event is overwritten. -/
structure Ring where
  capacity : Nat
  cells : Array Event
  /-- Where the next event goes. -/
  head : Nat := 0
  /-- Whether every cell has been filled. -/
  full : Bool := false
  deriving Inhabited

namespace Ring

def ofCapacity (n : Int) : Ring :=
  let capacity := if n ≤ 0 then 4096 else n.toNat
  { capacity, cells := Array.replicate capacity default }

def push (r : Ring) (e : Event) : Ring :=
  let head := (r.head + 1) % r.capacity
  { r with cells := r.cells.setIfInBounds r.head e, head, full := r.full || head == 0 }

def events (r : Ring) : List Event :=
  if r.full then r.cells.toList.drop r.head ++ r.cells.toList.take r.head else r.cells.toList.take r.head

end Ring

structure Tracer where
  level : Level
  session : String := ""
  /-- The format in which events are written out, if they are. -/
  stream : Option Format := none
  ring : Option Ring := none
  /-- How many numbers have been given to events. -/
  numbered : Nat := 0
  /-- How many pieces of work have been begun. -/
  spans : Nat := 0
  /-- What has been written out. -/
  written : String := ""
  deriving Inhabited

namespace Tracer

def silent : Tracer := { level := Level.off }

def new (level : Level) (storage : Storage) (format : Format) (path : String) (capacity : Int)
    (session : String) : Except String Tracer :=
  let format := format.resolve path
  let ring := Ring.ofCapacity capacity
  if level = Level.off then .ok silent
  else if storage = Storage.stream then .ok { level, session, stream := some format }
  else if storage = Storage.ring then .ok { level, session, ring := some ring }
  else if storage = Storage.both then .ok { level, session, stream := some format, ring := some ring }
  else .error ("unknown storage mode: " ++ storage.name)

/-- The next event number on an event, and the session of the tracer if it has none. -/
def number (t : Tracer) (e : Event) : Event :=
  { e with sequence := t.numbered + 1,
           session := if e.session.isEmpty then t.session else e.session }

def writeOut (t : Tracer) (e : Event) : Tracer :=
  match t.stream with
  | some f =>
    { t with written := t.written ++ (t.number e).render f, numbered := t.numbered + 1 }
  | none => t

def keep (t : Tracer) (e : Event) : Tracer :=
  match t.ring with
  | some r => { t with ring := some (r.push (t.number e)), numbered := t.numbered + 1 }
  | none => t

/-- Takes an event in if it is wanted: it is written out, then kept. -/
def emit (t : Tracer) (e : Event) : Tracer :=
  if t.level.admits e.scope then (t.writeOut e).keep e else t

def events (t : Tracer) : List Event := (t.ring.map Ring.events).getD []

end Tracer

/-- A piece of work that a trace follows; only wanted ones are followed. -/
structure Span where
  id : Nat
  parent : Nat
  scope : Scope
  name : String
  extra : List (String × String) := []
  deriving DecidableEq, Repr, Inhabited

def setFact (key value : String) : List (String × String) → List (String × String)
  | [] => [(key, value)]
  | (k, v) :: rest =>
    if key = k then (key, value) :: rest
    else if key < k then (key, value) :: (k, v) :: rest
    else (k, v) :: setFact key value rest

namespace Span

def withFact (s : Span) (key value : String) : Span :=
  { s with extra := setFact key value s.extra }

end Span

namespace Tracer

/-- Begins a piece of work inside another, if it is wanted. -/
def begin (t : Tracer) (scope : Scope) (name : String) (parent : Nat) : Tracer × Option Span :=
  if t.level.admits scope then
    let s : Span := ⟨t.spans + 1, parent, scope, name, []⟩
    let t := { t with spans := t.spans + 1 }
    (t.emit { kind := Kind.spanBegin, scope, span := s.id, parent, name }, some s)
  else (t, none)

def finish (t : Tracer) (s : Span) (detail : String) : Tracer :=
  t.emit { kind := Kind.spanEnd, scope := s.scope, span := s.id, parent := s.parent,
           name := s.name, detail, extra := s.extra }

def point (t : Tracer) (scope : Scope) (name detail : String) (parent : Nat) : Tracer :=
  t.emit { kind := Kind.point, scope, parent, name, detail }

/-- Adds a fact to a piece of work. Its end, if it is kept with facts already, shows the
fact as well. -/
def annotate (t : Tracer) (s : Span) (key value : String) : Tracer × Span :=
  let shown := fun (e : Event) =>
    if e.span = s.id ∧ !e.extra.isEmpty then { e with extra := setFact key value e.extra } else e
  ({ t with ring := t.ring.map fun r => { r with cells := r.cells.map shown } }, s.withFact key value)

end Tracer

/-- Begins a piece of work inside the one of a number. With it comes the number for what is done inside: its own, or
that of the piece around if it is not wanted. -/
def start (around : Nat) (scope : Scope) (name : String) : StateM Tracer (Nat × Option Span) := do
  let (t, s) := (← get).begin scope name around
  set t
  return ((s.map (·.id)).getD around, s)

def finish (s : Option Span) (detail : String) : StateM Tracer Unit :=
  match s with
  | some s => modify (·.finish s detail)
  | none => return

/-- Records something without duration that lies in no piece of work. -/
def point (scope : Scope) (name detail : String) : StateM Tracer Unit := modify (·.point scope name detail 0)

end WitnessLang.Trace
