set_option autoImplicit false

namespace WitnessLang.Integer

inductive Fault where
  | malformed
  | outOfRange
  deriving DecidableEq, Repr

def Fault.message : Fault → String
  | .malformed => "invalid syntax"
  | .outOfRange => "value out of range"

/-- The value of a digit; letters stand for ten and up. -/
def digitValue? (c : Char) : Option Nat :=
  let c := c.toLower
  if c.isDigit then some (c.toNat - 48)
  else if c.isLower then some (c.toNat - 87)
  else none

def baseOf? (c : Char) : Option Nat :=
  match c.toLower with
  | 'b' => some 2
  | 'o' => some 8
  | 'x' => some 16
  | _ => none

structure Numeral where
  base : Nat
  /-- Digits, and underscores among them. -/
  digits : List Char
  /-- Whether a letter tells the base; an underscore may follow it like a digit. -/
  marked : Bool
  deriving DecidableEq, Repr

/-- Takes the mark for the base off. A zero in front without a letter stands for eight, and a mark
without anything behind it is none. -/
def Numeral.ofChars : List Char → Numeral
  | '0' :: c :: d :: rest =>
    match baseOf? c with
    | some base => ⟨base, d :: rest, true⟩
    | none => ⟨8, '0' :: c :: d :: rest, false⟩
  | '0' :: rest => ⟨8, '0' :: rest, false⟩
  | cs => ⟨10, cs, false⟩

abbrev limit : Nat := 18446744073709551616

/-- Reads digits behind a number that has been read; underscores are skipped. The first digit that
is none, or that makes the number too large, decides. -/
def scan (base : Nat) : Nat → List Char → Except Fault Nat
  | n, [] => .ok n
  | n, '_' :: rest => scan base n rest
  | n, c :: rest =>
    match digitValue? c with
    | none => .error .malformed
    | some d =>
      if base ≤ d then .error .malformed
      else if limit ≤ base * n + d then .error .outOfRange
      else scan base (base * n + d) rest

/-- Whether every underscore stands between digits; `digit` tells whether one comes before. -/
def separated (digit : Bool) : List Char → Bool
  | [] => true
  | ['_'] => false
  | '_' :: rest => digit && separated false rest
  | _ :: rest => separated true rest

def magnitude (cs : List Char) : Except Fault Nat :=
  if cs.isEmpty then .error .malformed
  else
    let numeral := Numeral.ofChars cs
    match scan numeral.base 0 numeral.digits with
    | .error e => .error e
    | .ok n => if separated numeral.marked numeral.digits then .ok n else .error .malformed

def parse (s : String) : Except Fault Int := do
  let (sign, cs) : Int × List Char := match s.toList with
    | '-' :: cs => (-1, cs)
    | '+' :: cs => (1, cs)
    | cs => (1, cs)
  let n := sign * (← magnitude cs : Nat)
  if -9223372036854775808 ≤ n ∧ n < 9223372036854775808 then return n else throw .outOfRange

end WitnessLang.Integer
