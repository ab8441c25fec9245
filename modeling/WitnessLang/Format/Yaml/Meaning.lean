import WitnessLang.Number.Binary64

set_option autoImplicit false

namespace WitnessLang.Yaml.Timestamp

/-- A number of one or two digits, and what follows it. -/
def number? : List Char → Option (Nat × List Char)
  | a :: b :: rest =>
    if !a.isDigit then none
    else if b.isDigit then some ((a.toNat - 48) * 10 + (b.toNat - 48), rest)
    else some (a.toNat - 48, b :: rest)
  | [a] => if a.isDigit then some (a.toNat - 48, []) else none
  | [] => none

def after? (c : Char) : List Char → Option (List Char)
  | d :: rest => if d = c then some rest else none
  | [] => none

def isLeap (year : Nat) : Bool := year % 4 == 0 && (year % 100 != 0 || year % 400 == 0)

def daysIn (year month : Nat) : Nat :=
  if month = 2 then (if isLeap year then 29 else 28)
  else if month = 4 || month = 6 || month = 9 || month = 11 then 30
  else 31

/-- What follows a date. Its year has four digits, and its day is one of its month. -/
def date? (cs : List Char) : Option (List Char) := do
  let digits := cs.takeWhile Char.isDigit
  if digits.length != 4 then none
  let year := digits.foldl (fun n c => n * 10 + (c.toNat - 48)) 0
  let (month, rest) ← number? (← after? '-' (cs.drop 4))
  let (day, rest) ← number? (← after? '-' rest)
  if 1 ≤ month && month ≤ 12 && 1 ≤ day && day ≤ daysIn year month then some rest else none

/-- A text without a fraction of a second at its start. -/
def dropFraction : List Char → List Char
  | p :: d :: rest =>
    if (p == '.' || p == ',') && d.isDigit then rest.dropWhile Char.isDigit else p :: d :: rest
  | cs => cs

def time? (cs : List Char) : Option (List Char) := do
  let (hour, rest) ← number? cs
  let (minute, rest) ← number? (← after? ':' rest)
  let (second, rest) ← number? (← after? ':' rest)
  if hour < 24 && minute < 60 && second < 60 then some (dropFraction rest) else none

/-- Whether a text is a zone: `Z`, or how many hours and minutes it is off. -/
def isZone : List Char → Bool
  | ['Z'] => true
  | [sign, h, i, colon, m, n] =>
    (sign == '+' || sign == '-') && colon == ':' && [h, i, m, n].all Char.isDigit
      && (h.toNat - 48) * 10 + (i.toNat - 48) ≤ 24 && (m.toNat - 48) * 10 + (n.toNat - 48) ≤ 60
  | _ => false

def isTimestamp (cs : List Char) : Bool :=
  match date? cs with
  | none => false
  | some [] => true
  | some (c :: rest) =>
    if c == 'T' || c == 't' then (time? rest).any isZone
    else c == ' ' && (time? (rest.dropWhile (· == ' '))).any List.isEmpty

end WitnessLang.Yaml.Timestamp

namespace WitnessLang.Yaml

/-- The words that stand for null, truth values and special numbers. -/
def reservedWords : List String :=
  ["", "~", "null", "Null", "NULL", "true", "True", "TRUE", "false", "False", "FALSE",
    ".nan", ".NaN", ".NAN", ".inf", ".Inf", ".INF", "+.inf", "+.Inf", "+.INF",
    "-.inf", "-.Inf", "-.INF"]

/-- The words that older readers take for truth values. -/
def oldTruthWords : List String :=
  ["y", "Y", "yes", "Yes", "YES", "on", "On", "ON", "n", "N", "no", "No", "NO", "off", "Off", "OFF"]

def unsigned : List Char → List Char
  | '+' :: rest | '-' :: rest => rest
  | cs => cs

def basedDigits : List Char → Nat × List Char
  | '0' :: 'x' :: rest | '0' :: 'X' :: rest => (16, rest)
  | '0' :: 'b' :: rest | '0' :: 'B' :: rest => (2, rest)
  | '0' :: 'o' :: rest | '0' :: 'O' :: rest => (8, rest)
  | '0' :: c :: rest => (8, c :: rest)
  | cs => (10, cs)

def digitValue (c : Char) : Nat :=
  if c.isDigit then c.toNat - 48
  else if 'a' ≤ c ∧ c ≤ 'f' then c.toNat - 87
  else if 'A' ≤ c ∧ c ≤ 'F' then c.toNat - 55
  else 16

def valueOf? (base : Nat) (cs : List Char) : Option Nat :=
  if cs.isEmpty || cs.any (fun c => decide (base ≤ digitValue c)) then none
  else some (cs.foldl (fun n c => n * base + digitValue c) 0)

/-- Whether a number with the sign that a text starts with has 64 bits. -/
def fits (signed : List Char) (n : Nat) : Bool :=
  match signed with
  | '-' :: _ => decide (n ≤ Nat.pow 2 63)
  | '+' :: _ => decide (n < Nat.pow 2 63)
  | _ => decide (n < Nat.pow 2 64)

/-- Whether a text is a whole number of 64 bits, its sign before its base. -/
def isWhole (cs : List Char) : Bool :=
  let (base, digits) := basedDigits (unsigned cs)
  (valueOf? base digits).any (fits cs)

/-- Whether a text is a whole number of 64 bits in base two or eight, its sign behind its base. -/
def isWholeSignedLate : List Char → Bool
  | '0' :: 'b' :: rest => (valueOf? 2 (unsigned rest)).any (fits rest)
  | '0' :: 'o' :: rest => (valueOf? 8 (unsigned rest)).any (fits rest)
  | _ => false

/-- The exponent that ends a number; none there is zero. -/
def exponent? : List Char → Option Int
  | [] => some 0
  | e :: rest =>
    if e == 'e' || e == 'E' then
      match rest with
      | '-' :: digits => (valueOf? 10 digits).map fun n => -(n : Int)
      | _ => (valueOf? 10 (unsigned rest)).map fun n => (n : Int)
    else none

/-- Whether a text is a decimal fraction within the range of numbers. -/
def isFraction (cs : List Char) : Bool :=
  let cs := unsigned cs
  let whole := cs.takeWhile Char.isDigit
  let rest := cs.dropWhile Char.isDigit
  let places := match rest with
    | '.' :: rest => rest.takeWhile Char.isDigit
    | _ => []
  let rest := match rest with
    | '.' :: rest => rest.dropWhile Char.isDigit
    | _ => rest
  !(whole ++ places).isEmpty &&
    match exponent? rest with
    | none => false
    | some e =>
      (Binary64.ofScientific (Binary64.digits 0 (whole ++ places)) (e - places.length)).isSome

/-- Whether every underscore stands between two digits, in a text after a digit or not. -/
def underscoresSeparate (afterDigit : Bool) : List Char → Bool
  | [] => true
  | '_' :: rest =>
    afterDigit && rest.head?.any Char.isDigit && underscoresSeparate false rest
  | c :: rest => underscoresSeparate c.isDigit rest

/-- Whether a text is a list of numbers below sixty, as older readers take it. -/
def isSexagesimal (s : String) : Bool :=
  match (unsigned s.toList).splitOn ':' with
  | first :: part :: parts =>
    let isPart := fun (p : List Char) => match p with
      | [a] => a.isDigit
      | [a, b] => decide ('0' ≤ a ∧ a ≤ '5') && b.isDigit
      | _ => false
    let whole := (part :: parts).dropLast
    let last := ((part :: parts).getLast?.getD []).takeWhile (· != '.')
    let fraction := ((part :: parts).getLast?.getD []).dropWhile (· != '.')
    (first.head?.map Char.isDigit).getD false
      && first.all (fun c => c.isDigit || c == '_')
      && whole.all isPart && isPart last
      && (fraction.drop 1).all (fun c => c.isDigit || c == '_')
  | _ => false

/-- Whether a text is a number or a point in time. Underscores may stand anywhere in a number,
but in one that starts with a point only between digits. -/
def isNumeral (cs : List Char) : Bool :=
  let bare := cs.filter (· != '_')
  match cs with
  | [] => false
  | '.' :: _ => underscoresSeparate false cs && isFraction bare
  | c :: _ =>
    (c.isDigit || c == '+' || c == '-')
      && (Timestamp.isTimestamp cs || isWhole bare || isFraction bare || isWholeSignedLate bare)

/-- Whether a reader takes a text without quotes for a text. -/
def readsAsText (s : String) : Bool :=
  !(reservedWords.contains s || oldTruthWords.contains s || isNumeral s.toList || isSexagesimal s)

end WitnessLang.Yaml
