import WitnessLang.Text.Utf8
import WitnessLang.Text.CharClass

set_option autoImplicit false

namespace WitnessLang.Quoted

def hexDigit (n : Nat) : Char := "0123456789abcdef".toList.getD n '0'

def hex : Nat → Nat → List Char
  | 0, _ => []
  | width + 1, n => hex width (n / 16) ++ [hexDigit (n % 16)]

/-- Whether a character is written as it is: graphic characters and the plain blank. -/
def printable (c : Char) : Bool := c == ' ' || CharClass.graphic.has c

def escape (mark c : Char) : List Char :=
  if c == mark || c == '\\' then ['\\', c]
  else if printable c then [c]
  else match c.toNat with
    | 0x07 => ['\\', 'a']
    | 0x08 => ['\\', 'b']
    | 0x09 => ['\\', 't']
    | 0x0A => ['\\', 'n']
    | 0x0B => ['\\', 'v']
    | 0x0C => ['\\', 'f']
    | 0x0D => ['\\', 'r']
    | n =>
      if n < 0x20 || n == 0x7F then '\\' :: 'x' :: hex 2 n
      else if n < 0x10000 then '\\' :: 'u' :: hex 4 n
      else '\\' :: 'U' :: hex 8 n

/-- One reading step between quotes; a stray byte is written as its number. -/
def escapeGlyph (mark : Char) : Utf8.Glyph → List Char
  | .char c => escape mark c
  | .stray b => '\\' :: 'x' :: hex 2 b.toNat

def ofBytes (b : Bytes) : String :=
  String.ofList ('"' :: (Utf8.glyphs b).flatMap (escapeGlyph '"') ++ ['"'])

def ofString (s : String) : String :=
  String.ofList ('"' :: s.toList.flatMap (escape '"') ++ ['"'])

def ofChar (c : Char) : String :=
  String.ofList ('\x27' :: escape '\x27' c ++ ['\x27'])

end WitnessLang.Quoted
