import WitnessLang.Format.Yaml.Meaning
import WitnessLang.Text.Trim
import WitnessLang.Text.Quoted

set_option autoImplicit false

namespace WitnessLang

inductive Yaml where
  | text (s : String)
  | bool (b : Bool)
  | list (items : List Yaml)
  | map (entries : List (String × Yaml))

namespace Yaml

/-- Whether a character may stand in a document as it is. -/
def isPrintable (c : Char) : Bool :=
  let n := c.toNat
  n == 10 || (decide (0x20 ≤ n ∧ n ≤ 0x7e)) || (decide (0xa0 ≤ n ∧ n ≤ 0xd7ff))
    || (decide (0xe000 ≤ n ∧ n ≤ 0xfffd) && n != 0xfeff)

def isBreak (c : Char) : Bool :=
  c == '\n' || c == '\r' || c.toNat == 0x85 || c.toNat == 0x2028 || c.toNat == 0x2029

def endsWord : List Char → Bool
  | [] => true
  | c :: _ => c == ' ' || c == '\t'

/-- Whether the first character would start something other than a text. -/
def startsWithMark : List Char → Bool
  | [] => false
  | c :: rest =>
    ("#,[]\x7b\x7d&*!|>\x27\"%@\x60".toList).contains c
      || ((c == '?' || c == ':' || c == '-') && endsWord rest)

/-- Whether a colon before a blank, or a blank before a number sign, occurs. -/
def hasMark : List Char → Bool
  | [] => false
  | [c] => c == ':'
  | c :: d :: rest =>
    (c == ':' && (d == ' ' || d == '\t'))
      || ((c == ' ' || c == '\t' || isBreak c) && d == '#')
      || hasMark (d :: rest)

/-- Whether a text begins like the line between two documents. -/
def startsWithRule : List Char → Bool
  | '-' :: '-' :: '-' :: _ | '.' :: '.' :: '.' :: _ => true
  | _ => false

/-- Whether two characters stand next to each other somewhere. -/
def hasPair (p q : Char → Bool) : List Char → Bool
  | c :: d :: rest => (p c && q d) || hasPair p q (d :: rest)
  | _ => false

inductive Style where
  | bare | singleQuoted | doubleQuoted | literal
  deriving DecidableEq, Repr

/-- Whether a text can stand without quotes on its line. -/
def canStandBare (cs : List Char) : Bool :=
  !(startsWithMark cs || hasMark cs || startsWithRule cs || cs.any isBreak
    || cs.head? == some ' ' || cs.getLast? == some ' ')

/-- Whether a text can stand line by line: nothing needs an escape but tabs, which need none
here, and no blank ends a line. -/
def canStandInLines (cs : List Char) : Bool :=
  cs.all (fun c => isPrintable c || c == '\t') && !hasPair (· == ' ') isBreak cs
    && cs.getLast? != some ' '

def canStandQuoted (cs : List Char) : Bool :=
  cs.all isPrintable && !hasPair isBreak (· == ' ') cs && !hasPair (· == ' ') isBreak cs

/-- The plainest style that shows a text and is read back as a text. -/
def Style.ofText (s : String) : Style :=
  let cs := s.toList
  if cs.contains '\n' then (if canStandInLines cs then .literal else .doubleQuoted)
  else if !readsAsText s then .doubleQuoted
  else if !canStandQuoted cs then .doubleQuoted
  else if canStandBare cs then .bare
  else .singleQuoted

/-- A character as a number behind a mark for the width of that number. -/
def numbered (n : Nat) : String :=
  let (mark, width) :=
    if n ≤ 0xff then ("\\x", 2) else if n ≤ 0xffff then ("\\u", 4) else ("\\U", 8)
  mark ++ (String.ofList (Quoted.hex width n)).toUpper

def escape (c : Char) : String :=
  match c.toNat with
  | 0x00 => "\\0"
  | 0x07 => "\\a"
  | 0x08 => "\\b"
  | 0x09 => "\\t"
  | 0x0a => "\\n"
  | 0x0b => "\\v"
  | 0x0c => "\\f"
  | 0x0d => "\\r"
  | 0x1b => "\\e"
  | 0x22 => "\\\""
  | 0x5c => "\\\\"
  | 0x85 => "\\N"
  | 0xa0 => "\\_"
  | 0x2028 => "\\L"
  | 0x2029 => "\\P"
  | n => numbered n

/-- A text in double quotes. Behind a byte order mark every character is escaped. -/
def doubleQuoted (cs : List Char) : String :=
  let marked := cs.head? == some '\uFEFF'
  let shown := fun (c : Char) =>
    if marked || !isPrintable c || isBreak c || c == '"' || c == '\\' then escape c else c.toString
  "\"" ++ String.join (cs.map shown) ++ "\""

/-- The head of a text that is written line by line: whether its first line is indented by
itself, and what becomes of the line breaks at its end. -/
def literalHead (cs : List Char) : String :=
  let indent := match cs with
    | c :: _ => if c == ' ' || isBreak c then "2" else ""
    | [] => ""
  let chomp := match cs.reverse with
    | [] => "-"
    | [c] => if isBreak c then "+" else "-"
    | c :: d :: _ => if !isBreak c then "-" else if isBreak d then "+" else ""
  "|" ++ indent ++ chomp

/-- A document so far. The margin is the number of blanks and dashes on the last line, while it
holds nothing else. -/
structure Draft where
  text : String
  margin : Option Nat

namespace Draft

def add (d : Draft) (s : String) : Draft := ⟨d.text ++ s, none⟩

def word (d : Draft) (s : String) : Draft := d.add (" " ++ s)

/-- Goes to column `n`, on a new line unless the margin is all there is. -/
def indentTo (d : Draft) (n : Nat) : Draft :=
  match d.margin with
  | some c => d.add (Pad.blanks (n - c))
  | none => d.add ("\n" ++ Pad.blanks n)

def dash (d : Draft) (n : Nat) : Draft := ⟨(d.indentTo n).text ++ "-", some (n + 1)⟩

/-- A text in lines that start in column `n`, each character as `shown` says; `fresh` when a line
is to be started. A break at the very start ends the line that stands there already. -/
def pour (n : Nat) (shown : Char → String) : Bool → Draft → List Char → Draft
  | _, d, [] => d
  | fresh, d, c :: rest =>
    if isBreak c then pour n shown true ⟨d.text.push c, some 0⟩ rest
    else pour n shown false ((if fresh then d.indentTo n else d).add (shown c)) rest

def addText (d : Draft) (n : Nat) (s : String) : Draft :=
  match Style.ofText s with
  | .bare => d.word s
  | .doubleQuoted => d.word (doubleQuoted s.toList)
  | .singleQuoted =>
    let quote := fun (c : Char) => if c == '\x27' then "\x27\x27" else c.toString
    (pour n quote false (d.word "\x27") s.toList).add "\x27"
  | .literal => pour n Char.toString true (d.word (literalHead s.toList)) s.toList

mutual

/-- A part of a document in column `n`, behind its key or dash. -/
def addPart (n : Nat) (d : Draft) : Yaml → Draft
  | .text s => d.addText n s
  | .bool b => d.word (if b then "true" else "false")
  | .list items => if items.isEmpty then d.word "[]" else addItems n d items
  | .map entries => if entries.isEmpty then d.word "\x7b\x7d" else addEntries n d entries

def addItems (n : Nat) (d : Draft) : List Yaml → Draft
  | [] => d
  | i :: rest => addItems n (addPart (n + 2) (d.dash n) i) rest

def addEntries (n : Nat) (d : Draft) : List (String × Yaml) → Draft
  | [] => d
  | (key, value) :: rest =>
    addEntries n (addPart (n + 2) ((d.indentTo n).add (key ++ ":")) value) rest

end

end Draft

def render (y : Yaml) : String := ((Draft.addPart 0 ⟨"", some 0⟩ y).indentTo 0).text

end Yaml

end WitnessLang
