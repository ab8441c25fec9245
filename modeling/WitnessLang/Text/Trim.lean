import WitnessLang.Text.CharClass

set_option autoImplicit false

namespace WitnessLang.Pad

def blanks (n : Nat) : String := String.ofList (List.replicate n ' ')

/-- A text with blanks before it, at least `width` characters wide. -/
def left (width : Nat) (s : String) : String := blanks (width - s.length) ++ s

/-- A text with blanks after it, at least `width` characters wide. -/
def right (width : Nat) (s : String) : String := s ++ blanks (width - s.length)

end WitnessLang.Pad

namespace WitnessLang

def CharClass.whiteSpace : CharClass := ⟨#[(0x09, 0x0d), (0x20, 0x20), (0x85, 0x85), (0xa0, 0xa0),
  (0x1680, 0x1680), (0x2000, 0x200a), (0x2028, 0x2029), (0x202f, 0x202f), (0x205f, 0x205f),
  (0x3000, 0x3000)]⟩

namespace Trim

def leading (cs : List Char) : List Char := cs.dropWhile CharClass.whiteSpace.has

def both (s : String) : String :=
  String.ofList (leading (leading s.toList).reverse).reverse

end Trim

end WitnessLang
