import WitnessLang.Text.Bytes

set_option autoImplicit false

namespace WitnessLang.Utf8

/-- One reading step: a character, or a byte that belongs to none. -/
inductive Glyph where
  | char (c : Char)
  | stray (b : UInt8)
  deriving DecidableEq, Repr

/-- The character a reader sees; a stray byte shows as U+FFFD. -/
def Glyph.shown : Glyph → Char
  | .char c => c
  | .stray _ => '\uFFFD'

def Glyph.char? : Glyph → Option Char
  | .char c => some c
  | .stray _ => none

def within (lo hi b : UInt8) : Bool := decide (lo ≤ b) && decide (b ≤ hi)

def isTail (b : UInt8) : Bool := within 0x80 0xBF b

/-- The bounds of the byte after a given lead byte of a sequence of three or four. -/
def secondBounds (lead : UInt8) : UInt8 × UInt8 :=
  if lead = 0xE0 then (0xA0, 0xBF)
  else if lead = 0xED then (0x80, 0x9F)
  else if lead = 0xF0 then (0x90, 0xBF)
  else if lead = 0xF4 then (0x80, 0x8F)
  else (0x80, 0xBF)

def payload (b : UInt8) : Nat := b.toNat % 64

/-- The character that `lead :: rest` begins with, and what follows it. -/
def char? (lead : UInt8) (rest : Bytes) : Option (Char × Bytes) :=
  if lead < 0x80 then some (Char.ofNat lead.toNat, rest)
  else if within 0xC2 0xDF lead then
    match rest with
    | b :: rest =>
      if isTail b then some (Char.ofNat (lead.toNat % 32 * 64 + payload b), rest) else none
    | _ => none
  else if within 0xE0 0xEF lead then
    match rest with
    | b :: c :: rest =>
      if within (secondBounds lead).1 (secondBounds lead).2 b && isTail c then
        some (Char.ofNat ((lead.toNat % 16 * 64 + payload b) * 64 + payload c), rest)
      else none
    | _ => none
  else if within 0xF0 0xF4 lead then
    match rest with
    | b :: c :: d :: rest =>
      if within (secondBounds lead).1 (secondBounds lead).2 b && isTail c && isTail d then
        some (Char.ofNat
          (((lead.toNat % 8 * 64 + payload b) * 64 + payload c) * 64 + payload d), rest)
      else none
    | _ => none
  else none

theorem char?_length {lead : UInt8} {rest rest' : Bytes} {c : Char}
    (read : char? lead rest = some (c, rest')) : rest'.length ≤ rest.length := by
  unfold char? at read
  repeat' split at read
  all_goals first | cases read; simp | cases read
  all_goals omega

def step (lead : UInt8) (rest : Bytes) : Glyph × Bytes :=
  match char? lead rest with
  | some (c, rest) => (.char c, rest)
  | none => (.stray lead, rest)

theorem step_length (lead : UInt8) (rest : Bytes) :
    (step lead rest).2.length ≤ rest.length := by
  unfold step
  split
  next read => exact char?_length read
  next => simp

def glyphs : Bytes → List Glyph
  | [] => []
  | lead :: rest => (step lead rest).1 :: glyphs (step lead rest).2
termination_by b => b.length
decreasing_by
  have := step_length lead rest
  simp only [List.length_cons]
  omega

/-- The string a text spells, when all of it is well formed. -/
def string? (b : Bytes) : Option String :=
  ((glyphs b).mapM Glyph.char?).map String.ofList

/-- The string a text spells, with U+FFFD for every stray byte. -/
def stringLossy (b : Bytes) : String := String.ofList ((glyphs b).map Glyph.shown)

end WitnessLang.Utf8
