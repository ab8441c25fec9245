import WitnessLang.Text.Utf8
import WitnessLang.Text.Quoted

set_option autoImplicit false

namespace WitnessLang

inductive Json where
  | bool (b : Bool)
  | number (n : Int)
  | string (text : Bytes)
  | array (items : List Json)
  | object (members : List (String × Json))

namespace Json

def str (s : String) : Json := .string (Bytes.ofString s)

def nat (n : Nat) : Json := .number n

def escape : Utf8.Glyph → String
  | .stray _ => "\\ufffd"
  | .char c =>
    if c == '"' then "\\\""
    else if c == '\\' then "\\\\"
    else match c.toNat with
      | 0x08 => "\\b"
      | 0x0C => "\\f"
      | 0x0A => "\\n"
      | 0x0D => "\\r"
      | 0x09 => "\\t"
      | n =>
        if n < 0x20 || c == '<' || c == '>' || c == '&' || n == 0x2028 || n == 0x2029 then
          "\\u" ++ String.ofList (Quoted.hex 4 n)
        else c.toString

def quote (b : Bytes) : String := "\"" ++ String.join ((Utf8.glyphs b).map escape) ++ "\""

def lineBreak (depth : Nat) : String := "\n" ++ String.ofList (List.replicate (2 * depth) ' ')

mutual

def compact : Json → String
  | .bool b => if b then "true" else "false"
  | .number n => toString n
  | .string b => quote b
  | .array items => "[" ++ ",".intercalate (compactItems items) ++ "]"
  | .object members => "\x7b" ++ ",".intercalate (compactMembers members) ++ "\x7d"

def compactItems : List Json → List String
  | [] => []
  | j :: rest => compact j :: compactItems rest

def compactMembers : List (String × Json) → List String
  | [] => []
  | (k, j) :: rest => (quote (Bytes.ofString k) ++ ":" ++ compact j) :: compactMembers rest

end

mutual

/-- A document at a nesting depth, every item and member on a line of its own. -/
def indented (depth : Nat) : Json → String
  | .bool b => if b then "true" else "false"
  | .number n => toString n
  | .string b => quote b
  | .array [] => "[]"
  | .array items =>
    "[" ++ lineBreak (depth + 1) ++ ("," ++ lineBreak (depth + 1)).intercalate
      (indentedItems (depth + 1) items) ++ lineBreak depth ++ "]"
  | .object [] => "\x7b\x7d"
  | .object members =>
    "\x7b" ++ lineBreak (depth + 1) ++ ("," ++ lineBreak (depth + 1)).intercalate
      (indentedMembers (depth + 1) members) ++ lineBreak depth ++ "\x7d"

def indentedItems (depth : Nat) : List Json → List String
  | [] => []
  | j :: rest => indented depth j :: indentedItems depth rest

def indentedMembers (depth : Nat) : List (String × Json) → List String
  | [] => []
  | (k, j) :: rest =>
    (quote (Bytes.ofString k) ++ ": " ++ indented depth j) :: indentedMembers depth rest

end

/-- An indented document as a whole file, closed by a line feed. -/
def document (j : Json) : String := indented 0 j ++ "\n"

end Json

end WitnessLang
