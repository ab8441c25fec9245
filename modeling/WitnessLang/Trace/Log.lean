import WitnessLang.Trace.Tracer

set_option autoImplicit false

namespace WitnessLang.Trace

structure Entry where
  /-- The piece, if it is followed. -/
  span : Option Span
  /-- The number under which work inside it is recorded. -/
  inner : Nat
  deriving Repr, Inhabited

structure Log where
  tracer : Tracer
  entries : List (Nat × Entry) := []
  deriving Inhabited

namespace Log

/-- Makes a piece of work known under a name; the last piece of a name counts. -/
def enter (l : Log) (id : Nat) (e : Entry) : Log := { l with entries := (id, e) :: l.entries }

/-- Begins a piece of work inside another; an unknown one stands for none. -/
def begin (l : Log) (id around : Nat) (scope : Scope) (name : String) : Log × Bool :=
  let outer := ((l.entries.lookup around).map (·.inner)).getD 0
  let (tracer, span) := l.tracer.begin scope name outer
  (enter { l with tracer } id ⟨span, (span.map (·.id)).getD outer⟩, span.isSome)

def annotate (l : Log) (id : Nat) (key value : String) : Log :=
  match l.entries.lookup id with
  | some ⟨some s, inner⟩ =>
    let (tracer, s) := l.tracer.annotate s key value
    enter { l with tracer } id ⟨some s, inner⟩
  | _ => l

def finish (l : Log) (id : Nat) (detail : String) : Log :=
  match l.entries.lookup id with
  | some ⟨some s, _⟩ => { l with tracer := l.tracer.finish s detail }
  | _ => l

end Log

end WitnessLang.Trace
