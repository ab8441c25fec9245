set_option autoImplicit false

namespace WitnessLang

/-- The bytes of file `file` from offset `start` up to, not including, offset `stop`. -/
structure Span where
  start : Nat := 0
  stop : Nat := 0
  file : Nat := 0
  deriving DecidableEq, Repr, Inhabited

namespace Span

def none : Span := {}

def isEmpty (s : Span) : Bool := s.start == s.stop

def length (s : Span) : Nat := (s.stop + Nat.pow 2 32 - s.start) % Nat.pow 2 32

/-- The least span that holds both; a span of another file changes nothing. -/
def cover (s other : Span) : Span :=
  if s.file != other.file then s
  else { s with start := min s.start other.start, stop := max s.stop other.stop }

def render (s : Span) : String :=
  toString s.file ++ ":" ++ toString s.start ++ "-" ++ toString s.stop

def inside (s outer : Span) : Bool := decide (outer.start ≤ s.start) && decide (s.stop ≤ outer.stop)

end Span

end WitnessLang
