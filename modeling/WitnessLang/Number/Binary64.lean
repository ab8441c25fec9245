set_option autoImplicit false

namespace WitnessLang.Binary64

/-- `num / den` rounded to the nearest natural number, ties to even. -/
def roundDiv (num den : Nat) : Nat :=
  let q := num / den
  let twice := 2 * (num % den)
  if twice < den then q
  else if den < twice then q + 1
  else if q % 2 = 0 then q else q + 1

/-- `num / den` divided by two to the power `e`, as a fraction of natural numbers. -/
def scaled (num den : Nat) (e : Int) : Nat × Nat :=
  if 0 ≤ e then (num, den * Nat.pow 2 e.toNat) else (num * Nat.pow 2 (-e).toNat, den)

/-- The power of two just below or at `num / den`, for positive `num` and `den`. -/
def magnitude (num den : Nat) : Int :=
  let guess : Int := (Nat.log2 num : Int) - (Nat.log2 den : Int)
  let s := scaled num den guess
  if s.1 < s.2 then guess - 1 else guess

/-- Exponent of the smallest subnormal number, and of the unit of the largest binade. -/
def leastExponent : Int := -1074
def greatestExponent : Int := 971

/-- The bits of the number nearest to `num / den`; nothing when it is out of range. -/
def ofRatio (num den : Nat) : Option Nat :=
  if num = 0 then some 0
  else
    let e := max (magnitude num den - 52) leastExponent
    let s := scaled num den e
    let q := roundDiv s.1 s.2
    let (q, e) := if q = Nat.pow 2 53 then (Nat.pow 2 52, e + 1) else (q, e)
    if greatestExponent < e then none
    else if q < Nat.pow 2 52 then some q
    else some ((e - leastExponent + 1).toNat * Nat.pow 2 52 + (q - Nat.pow 2 52))

/-- The value of a run of decimal digits, continuing from `acc`. -/
def digits (acc : Nat) : List Char → Nat
  | [] => acc
  | c :: rest => digits (acc * 10 + (c.toNat - 48)) rest

/-- The bits of the number nearest to `m` times ten to the power `e`; nothing when it is out of
range. A number of more than 310 places is, and one that starts behind place 330 is zero. -/
def ofScientific (m : Nat) (e : Int) : Option Nat :=
  let places := (Nat.toDigits 10 m).length + e
  if m = 0 || places < -330 then some 0
  else if 310 < places then none
  else if 0 ≤ e then ofRatio (m * Nat.pow 10 e.toNat) 1
  else ofRatio m (Nat.pow 10 (-e).toNat)

/-- The bits of a literal: digits, then perhaps a point and more digits. -/
def ofLiteral (s : String) : Option Nat :=
  let whole := s.toList.takeWhile (· != '.')
  let places := (s.toList.dropWhile (· != '.')).drop 1
  ofRatio (digits 0 (whole ++ places)) (Nat.pow 10 places.length)

end WitnessLang.Binary64
