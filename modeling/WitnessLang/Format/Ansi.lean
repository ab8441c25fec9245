import WitnessLang.Text.Bytes

set_option autoImplicit false

namespace WitnessLang.Ansi

inductive Attribute where
  | bold | red | green | yellow | blue | cyan | white
  deriving DecidableEq, Repr

namespace Attribute

def code : Attribute → Nat
  | .bold => 1
  | .red => 31
  | .green => 32
  | .yellow => 33
  | .blue => 34
  | .cyan => 36
  | .white => 37

/-- The number that turns the property off; colours end in a full reset. -/
def resetCode : Attribute → Nat
  | .bold => 22
  | _ => 0

end Attribute

def escape (codes : List Nat) : String := "\x1b[" ++ ";".intercalate (codes.map toString) ++ "m"

/-- Text with the given properties, when colour is on. -/
def paint (on : Bool) (attributes : List Attribute) (text : Bytes) : Bytes :=
  if on then
    Bytes.ofString (escape (attributes.map Attribute.code)) ++ text
      ++ Bytes.ofString (escape (attributes.map Attribute.resetCode))
  else text

end WitnessLang.Ansi
