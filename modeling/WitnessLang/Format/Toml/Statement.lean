import WitnessLang.Number.Integer
import WitnessLang.Text.Quoted

set_option autoImplicit false

namespace WitnessLang.Toml

abbrev Key := List String

/-- Whether a name with this character needs no quotes for it. -/
def isBare (c : Char) : Bool := c.isAlphanum || c == '_' || c == '-'

/-- A character of a name in quotes; only quotes, backslashes and controls are escaped. -/
def escapeChar (c : Char) : List Char :=
  match c.toNat with
  | 0x08 => ['\\', 'b']
  | 0x09 => ['\\', 't']
  | 0x0A => ['\\', 'n']
  | 0x0C => ['\\', 'f']
  | 0x0D => ['\\', 'r']
  | n =>
    if c == '"' || c == '\\' then ['\\', c]
    else if n < 0x20 || n == 0x7F then '\\' :: 'u' :: Quoted.hex 4 n
    else [c]

def renderName (s : String) : String :=
  if !s.isEmpty && s.toList.all isBare then s
  else "\"" ++ String.ofList (s.toList.flatMap escapeChar) ++ "\""

def Key.render (k : Key) : String := ".".intercalate (k.map renderName)

/-- The paths on the way to a key, and the key itself. -/
def Key.steps (k : Key) : List Key := (List.range k.length).map fun n => k.take (n + 1)

inductive Scalar where
  | string (text : String)
  | integer (number : Int)
  | float (text : String)
  | boolean (value : Bool)
  | dateTime (text : String)
  deriving DecidableEq, Repr

mutual

inductive Expr where
  | scalar (value : Scalar)
  | array (items : List Expr)
  | table (entries : List Assignment)

/-- A key with a value: the line of the key comes before the value and the line that the value is
known by behind it. -/
inductive Assignment where
  | mk (key : Key) (line : Nat) (value : Expr) (valueLine : Nat)

end

inductive Statement where
  /-- The table that assignments go to from here on. -/
  | table (key : Key) (line : Nat)
  /-- One more table of several under the same key. -/
  | item (key : Key) (line : Nat)
  | assign (assignment : Assignment)

abbrev Reader := StateT (List Char) (Except String)

namespace Reader

def peek : Reader (Option Char) := return (← get).head?

def takeWhile (p : Char → Bool) : Reader String := do
  let cs ← get
  set (cs.dropWhile p)
  return String.ofList (cs.takeWhile p)

def accept (s : String) : Reader Bool := do
  let cs ← get
  if s.toList.isPrefixOf cs then
    set (cs.drop s.length)
    return true
  else return false

def expect (s : String) : Reader Unit := do
  if !(← accept s) then throw ("expected " ++ Quoted.ofString s)

def lineEnds (cs : List Char) : Nat := (cs.filter (· == '\n')).length

/-- The line that reading has come to in a text of `total` line ends. -/
def line (total : Nat) : Reader Nat := return total - lineEnds (← get) + 1

def blanks : Reader Unit := do let _ ← takeWhile fun c => c == ' ' || c == '\t'

def comment : Reader Unit := do
  if (← peek) == some '#' then let _ ← takeWhile (· != '\n')

/-- Blanks, line ends and comments, of which there are at most `n`. -/
def gap : Nat → Reader Unit
  | 0 => return
  | n + 1 => do
    let _ ← takeWhile fun c => c == ' ' || c == '\t' || c == '\n' || c == '\r'
    if (← peek) == some '#' then
      comment
      gap n

def lineEnd : Reader Unit := do
  blanks
  comment
  if !(← accept "\r\n") && !(← accept "\n") && (← peek).isSome then
    throw "expected a new line"

def hexValue (ds : List Char) : Option Nat :=
  ds.foldl (fun sum c => do
    let d ← Integer.digitValue? c
    if d < 16 then some (16 * (← sum) + d) else none) (some 0)

def codePoint (digits : Nat) : Reader Char := do
  let cs ← get
  set (cs.drop digits)
  match hexValue (cs.take digits) with
  | some n =>
    if n.isValidChar && digits ≤ cs.length then return Char.ofNat n
    else throw "escaped character is not valid"
  | none => throw "escaped character is not valid"

def escape : Reader Char := do
  let cs ← get
  set (cs.drop 1)
  match cs.head? with
  | some 'b' => return '\x08'
  | some 't' => return '\t'
  | some 'n' => return '\n'
  | some 'f' => return '\x0c'
  | some 'r' => return '\r'
  | some '"' => return '"'
  | some '\\' => return '\\'
  | some 'u' => codePoint 4
  | some 'U' => codePoint 8
  | _ => throw "invalid escape character"

/-- The rest of a string up to its closing mark, in at most `n` steps. Only strings in double
quotes have escapes, and only those of three marks go over lines. -/
def stringRest (mark : String) (escapes long : Bool) : Nat → List Char → Reader String
  | 0, _ => throw "unterminated string"
  | n + 1, read => do
    if ← accept mark then
      -- up to two more marks belong to the text
      let more ← takeWhile fun c => long && mark.toList.head? == some c
      if more.length ≤ 2 then return String.ofList read.reverse ++ more
      else throw "unexpected quotes"
    else
      match (← get) with
      | [] => throw "unterminated string"
      | c :: cs =>
        set cs
        if (c == '\n' || c == '\r') && !long then throw "strings cannot contain new lines"
        else if c == '\\' && escapes then
          let blank := cs.dropWhile fun c => c == ' ' || c == '\t' || c == '\r'
          if long && blank.head? == some '\n' then
            let _ ← takeWhile fun c => c == ' ' || c == '\t' || c == '\n' || c == '\r'
            stringRest mark escapes long n read
          else
            let c ← escape
            stringRest mark escapes long n (c :: read)
        else stringRest mark escapes long n (c :: read)

/-- A string in its marks; a line end right behind three marks is not part of it. -/
def string (longAllowed : Bool) : Reader String := do
  let room := (← get).length + 1
  if longAllowed then
    for (mark, escapes) in [("\"\"\"", true), ("\x27\x27\x27", false)] do
      if ← accept mark then
        if !(← accept "\n") then let _ ← accept "\r\n"
        return ← stringRest mark escapes true room []
  if ← accept "\"" then stringRest "\"" true false room []
  else if ← accept "\x27" then stringRest "\x27" false false room []
  else throw "expected a string"

def simpleKey : Reader String := do
  match ← peek with
  | some '"' | some '\x27' => string false
  | _ =>
    let s ← takeWhile isBare
    if s.isEmpty then throw "expected a key" else return s

/-- The names of a key behind the first one, at most `n`. -/
def keyRest : Nat → Reader Key
  | 0 => return []
  | n + 1 => do
    blanks
    if ← accept "." then
      blanks
      let s ← simpleKey
      return s :: (← keyRest n)
    else return []

def key : Reader Key := do
  blanks
  let first ← simpleKey
  return first :: (← keyRest (← get).length)

/-- Whether a number has a sign only before a decimal one, no needless zero in front, and
underscores only between digits. -/
def wellFormed : List Char → Bool
  | '0' :: c :: rest => (c == 'x' || c == 'o' || c == 'b') && Integer.separated false rest
  | '-' :: rest | '+' :: rest =>
    (rest.head? != some '0' || rest.length == 1) && Integer.separated false rest
  | cs => Integer.separated false cs

def integer? (s : String) : Option Int :=
  if wellFormed s.toList then (Integer.parse s).toOption else none

/-- Whether a text has the form of a number with a fraction or an exponent. -/
def isFloat (s : String) : Bool :=
  let body := match s.toList with
    | '-' :: cs | '+' :: cs => cs
    | cs => cs
  body == "inf".toList || body == "nan".toList
    || (body.head?.any Char.isDigit && body.getLast?.any Char.isDigit
      && body.all fun c => c.isDigit || c == '.' || c == 'e' || c == 'E' || c == '_' || c == '+'
        || c == '-')

/-- A value without marks of its own: a truth value, a date or a number. -/
def plainValue : Reader Scalar := do
  let s ← takeWhile fun c => c.isAlphanum || c == '_' || c == '-' || c == '+' || c == '.' || c == ':'
  if s == "true" then return .boolean true
  else if s == "false" then return .boolean false
  else match integer? s with
    | some n => return .integer n
    | none =>
      let date := (s.toList.drop 4).head? == some '-' && 10 ≤ s.length
      if s.contains ':' || date then
        let _ ← accept " "
        let time ← takeWhile fun c => c.isAlphanum || c == ':' || c == '.' || c == '-' || c == '+'
        return .dateTime (s ++ time)
      else if isFloat s then return .float s
      else throw ("expected value but found " ++ Quoted.ofString s ++ " instead")

mutual

/-- A value in a text of `total` line ends, nested at most `n` deep. -/
def value (total : Nat) : Nat → Reader Expr
  | 0 => throw "values are nested too deep"
  | n + 1 => do
    match ← peek with
    | some '"' | some '\x27' => return .scalar (.string (← string true))
    | some '[' =>
      expect "["
      return .array (← arrayRest total n (← get).length)
    | some '\x7b' =>
      expect "\x7b"
      blanks
      if ← accept "\x7d" then return .table []
      return .table (← tableRest total n (← get).length)
    | _ => return .scalar (← plainValue)
  termination_by n => (n, 0)

def arrayRest (total n : Nat) : Nat → Reader (List Expr)
  | 0 => throw "unterminated array"
  | items + 1 => do
    gap (← get).length
    if ← accept "]" then return []
    let first ← value total n
    gap (← get).length
    if ← accept "," then return first :: (← arrayRest total n items)
    else
      expect "]"
      return [first]
  termination_by items => (n, items + 1)

/-- The rest of a table within braces, of at most `items` keys. -/
def tableRest (total n : Nat) : Nat → Reader (List Assignment)
  | 0 => throw "unterminated table"
  | items + 1 => do
    let k ← key
    blanks
    expect "="
    blanks
    let here ← line total
    let v ← value total n
    blanks
    let first := Assignment.mk k here v here
    if ← accept "," then
      blanks
      return first :: (← tableRest total n items)
    else
      expect "\x7d"
      return [first]
  termination_by items => (n, items + 1)

end

/-- A key with its value. The value is known by the line that a string ends on, or the one that
anything else starts on. -/
def assignment (total : Nat) : Reader Assignment := do
  let k ← key
  blanks
  expect "="
  blanks
  let start ← line total
  let v ← value total (← get).length
  let stop ← line total
  lineEnd
  return .mk k start v (match v with
    | .scalar _ => stop
    | _ => start)

def header (total : Nat) : Reader Statement := do
  let start ← line total
  expect "["
  let many ← accept "["
  let k ← key
  blanks
  expect (if many then "]]" else "]")
  lineEnd
  return if many then .item k start else .table k start

/-- The statements of a document of `total` line ends, at most `n`. -/
def statements (total : Nat) : Nat → Reader (List Statement)
  | 0 => return []
  | n + 1 => do
    gap (← get).length
    match ← peek with
    | none => return []
    | some '[' =>
      let first ← header total
      return first :: (← statements total n)
    | some _ =>
      let first ← assignment total
      return .assign first :: (← statements total n)

end Reader

/-- Whether a document may hold these characters: no controls but tabs and line ends, and no sign
for a character that could not be read. -/
def admissible : List Char → Bool
  | [] => true
  | '\r' :: '\n' :: rest => admissible rest
  | c :: rest =>
    (c == '\t' || c == '\n'
      || (decide (0x20 ≤ c.toNat) && c.toNat != 0x7f && c.toNat != 0xfffd)) && admissible rest

/-- Reads the statements of a text; a failure tells what is wrong. -/
def Statement.readAll (text : String) : Except String (List Statement) :=
  let cs := text.toList
  if admissible cs then
    ((Reader.statements (Reader.lineEnds cs) (cs.length + 1)).run cs).map (·.1)
  else .error "control characters are not allowed"

end WitnessLang.Toml
