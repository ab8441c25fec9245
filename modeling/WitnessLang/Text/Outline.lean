import WitnessLang.Text.Trim

set_option autoImplicit false

namespace WitnessLang

structure OutlineLine where
  depth : Nat
  text : String
  deriving DecidableEq, Repr

abbrev Outline := List OutlineLine

namespace Outline

def line (text : String) : Outline := [⟨0, text⟩]

def indent (o : Outline) : Outline := o.map fun l => { l with depth := l.depth + 1 }

def under (heading : String) (body : Outline) : Outline := line heading ++ indent body

/-- The text of an outline, each line closed by a line feed. -/
def render (o : Outline) : String :=
  String.join (o.map fun l => Pad.blanks (2 * l.depth) ++ l.text ++ "\n")

end Outline

def commaSeparated (ss : List String) : String := ", ".intercalate ss

end WitnessLang
