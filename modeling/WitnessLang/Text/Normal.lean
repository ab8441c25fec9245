import WitnessLang.Text.Normal.Table

set_option autoImplicit false

namespace WitnessLang.Normal

/-- Zero for starters; marks of different classes may change places. -/
def combiningClass (c : Char) : Nat :=
  ((combiningClasses.find? fun r => decide (r.1 ≤ c.toNat) && decide (c.toNat ≤ r.2.1)).map
    fun r => r.2.2).getD 0

inductive Parts where
  | one (c : Char)
  | two (a b : Char)

/-- First code points of the Hangul syllables and of their three kinds of parts. -/
def syllableBase : Nat := 0xAC00
def leadBase : Nat := 0x1100
def vowelBase : Nat := 0x1161
def tailBase : Nat := 0x11A7

def isSyllable (n : Nat) : Bool := syllableBase ≤ n && n < syllableBase + 11172

/-- A syllable is a lead, a vowel and one of 28 tails, the first of them empty. -/
def syllableParts? (n : Nat) : Option Parts :=
  if isSyllable n then
    let s := n - syllableBase
    if s % 28 = 0 then
      some (.two (Char.ofNat (leadBase + s / 588)) (Char.ofNat (vowelBase + s % 588 / 28)))
    else
      some (.two (Char.ofNat (n - s % 28)) (Char.ofNat (tailBase + s % 28)))
  else none

/-- The one other character that a character is a spelling of. -/
def single? (n : Nat) : Option Nat :=
  ((lowSingletons.find? (fun t => t.1 == n)).or (highSingletons.find? (fun t => t.1 == n))).map
    fun t => t.2

def parts? (c : Char) : Option Parts :=
  let n := c.toNat
  match syllableParts? n with
  | some p => some p
  | none =>
    let pair := (lowPairs.find? (fun t => t.1 == n)).or (highPairs.find? (fun t => t.1 == n))
    match pair with
    | some (_, a, b) => some (.two (Char.ofNat a) (Char.ofNat b))
    | none => (single? n).map fun a => .one (Char.ofNat a)

def takeApart : Nat → Char → List Char
  | 0, c => [c]
  | depth + 1, c =>
    match parts? c with
    | none => [c]
    | some (.one a) => takeApart depth a
    | some (.two a b) => takeApart depth a ++ takeApart depth b

/-- Full canonical decomposition; no character nests deeper than four steps. -/
def decompose (c : Char) : List Char := takeApart 4 c

def isPair (t : Nat × Nat × Nat) : Bool := !onlyTakenApart.contains t.1

/-- Whether a character may join one before it: the second part of a pair, and the vowels and
tails of Hangul, the empty tail among them. -/
def joins (c : Char) : Bool :=
  let n := c.toNat
  if leadBase ≤ n && n < leadBase + 0x100 then
    (vowelBase ≤ n && n < vowelBase + 21) || (tailBase ≤ n && n < tailBase + 28)
  else
    let second := fun (t : Nat × Nat × Nat) => t.2.2 == n && isPair t
    lowPairs.any second || highPairs.any second

/-- Whether a character counts as a mark: it has a class, or it may join what stands before it. -/
def isMark (c : Char) : Bool := combiningClass c != 0 || joins c

def marksBefore (c : Char) : Nat :=
  if markStandIns.has c then 1 else ((decompose c).takeWhile isMark).length

def marksAfter (c : Char) : Nat :=
  if markStandIns.has c then 1
  else
    match markedStandIns.find? fun r => decide (r.1 ≤ c.toNat) && decide (c.toNat ≤ r.2.1) with
    | some r => r.2.2
    | none => ((decompose c).reverse.takeWhile isMark).length

def classBefore (c : Char) : Nat := combiningClass ((decompose c).headD c)

/-- Whether a character stays as it is whatever stands before it. -/
def isSettled (c : Char) : Bool :=
  !onlyTakenApart.contains c.toNat && (single? c.toNat).isNone && !joins c

def longestRun : Nat := 30

/-- The combining grapheme joiner, a starter that shows nothing. -/
def joiner : Char := '\u034F'

/-- Reads on while a text is in normal form, after `marks` marks the last of which has the class
`last`. The text up to the last starter, and the text from that starter on, are given in reverse.
When the text is not in normal form, the first part stands up to the starter before the fault. -/
def settledAfter (marks last : Nat) (done current : List Char) :
    List Char → List Char × List Char
  | [] => ((current ++ done).reverse, [])
  | c :: rest =>
    let more := marksBefore c
    if longestRun < marks + more then (done.reverse, current.reverse ++ c :: rest)
    else if more = 0 then
      if isSettled c then settledAfter (marksAfter c) (classBefore c) (current ++ done) [c] rest
      else ((current ++ done).reverse, c :: rest)
    else if last ≤ classBefore c && isSettled c then
      settledAfter (marks + more) (classBefore c) done (c :: current) rest
    else (done.reverse, current.reverse ++ c :: rest)

/-- The longest stretch that a text begins with that can stay as it is, and the rest. -/
def settled (cs : List Char) : List Char × List Char := settledAfter 0 0 [] [] cs

/-- What belongs to a segment after `marks` marks, whether marks were left over, and the rest. -/
def segmentAfter (marks : Nat) : List Char → List Char × Bool × List Char
  | [] => ([], false, [])
  | c :: rest =>
    let more := marksBefore c
    if longestRun < marks + more then ([], true, c :: rest)
    else if more = 0 then ([], false, c :: rest)
    else
      let tail := segmentAfter (marks + more) rest
      (c :: tail.1, tail.2.1, tail.2.2)

/-- Puts a mark behind those of its own or a lower class, at the end of a reversed text. -/
def place (c : Char) : List Char → List Char
  | [] => [c]
  | d :: before =>
    if 0 < combiningClass c && combiningClass c < combiningClass d then d :: place c before
    else c :: d :: before

def syllable? (a b : Char) : Option Char :=
  let m := a.toNat
  let n := b.toNat
  if leadBase ≤ m && m < leadBase + 19 && vowelBase ≤ n && n < vowelBase + 21 then
    some (Char.ofNat (syllableBase + (m - leadBase) * 588 + (n - vowelBase) * 28))
  else if isSyllable m && (m - syllableBase) % 28 == 0 && tailBase < n && n < tailBase + 28 then
    some (Char.ofNat (m + (n - tailBase)))
  else none

/-- The character that two others make up. Pairs are looked up by the last sixteen bits of both
code points. -/
def composite? (a b : Char) : Option Char :=
  let made := fun (t : Nat × Nat × Nat) =>
    t.2.1 % 0x10000 == a.toNat % 0x10000 && t.2.2 % 0x10000 == b.toNat % 0x10000 && isPair t
  ((lowPairs.find? made).or (highPairs.find? made)).map fun t => Char.ofNat t.1

structure Composing where
  /-- What stands so far. -/
  kept : Array Char
  /-- Where the character stands that the next one may join. -/
  base : Nat
  /-- From the first part of a syllable on, only syllables are formed. -/
  syllables : Bool

/-- One more character. It joins the base unless one between them, of its own or a higher class,
is in the way. The base moves on to a starter only when a character that may join follows it. -/
def Composing.push (s : Composing) (c : Char) : Composing :=
  let syllables := s.syllables || (leadBase ≤ c.toNat && c.toNat < leadBase + 0x100)
  if !syllables && !joins c then { s with kept := s.kept.push c }
  else
    let last := combiningClass (s.kept.back?.getD c)
    let base := if last = 0 then s.kept.size - 1 else s.base
    let whole := if base + 1 = s.kept.size || last < combiningClass c then
        (s.kept[base]?).bind fun b => if syllables then syllable? b c else composite? b c
      else none
    match whole with
    | some w => ⟨s.kept.setIfInBounds base w, base, syllables⟩
    | none => ⟨s.kept.push c, base, syllables⟩

/-- Canonical composition of a segment in canonical order. -/
def compose : List Char → List Char
  | [] => []
  | c :: rest => (rest.foldl Composing.push ⟨#[c], 0, false⟩).kept.toList

/-- A segment being taken apart: what is finished, and the open part in canonical order, in
reverse. -/
structure Sorting where
  finished : List Char
  current : List Char

def Sorting.flush (s : Sorting) : Sorting := ⟨s.finished ++ compose s.current.reverse, []⟩

def Sorting.insert (s : Sorting) (c : Char) : Sorting := ⟨s.finished, place c s.current⟩

/-- Puts the parts of a character in their places. A part that is no mark, other than of a
syllable, closes what stands before it. -/
def Sorting.insertParts (s : Sorting) (c : Char) : Sorting :=
  if isSyllable c.toNat || (parts? c).isNone then (decompose c).foldl Sorting.insert s
  else (decompose c).foldl (fun s d =>
    if !isMark d && !s.current.isEmpty then s.flush.insert d else s.insert d) s

/-- A segment in normal form; one with marks left over ends in a joiner. -/
def segment (cs : List Char) (leftOver : Bool) : List Char :=
  let s := cs.foldl Sorting.insertParts ⟨[], []⟩
  (if leftOver then s.insert joiner else s).flush.finished

/-- Normal form of a text, of which at most `fuel` segments are worked on. -/
def normalizeWithin : Nat → List Char → List Char
  | 0, cs => cs
  | fuel + 1, cs =>
    match settled cs with
    | (done, []) => done
    | (done, c :: rest) =>
      let start := if marksBefore c = 0 then marksAfter c else marksBefore c
      let tail := segmentAfter start rest
      done ++ segment (c :: tail.1) tail.2.1 ++ normalizeWithin fuel tail.2.2

/-- Stream-safe Normalization Form C. Below U+0300 every text is in that form already. -/
def normalize (s : String) : String :=
  if s.toList.all fun c => decide (c.toNat < 0x300) then s
  else String.ofList (normalizeWithin s.length s.toList)

end WitnessLang.Normal
